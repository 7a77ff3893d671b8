import ModNdb.NSql.Compile
import ModNdb.NSql.Layout

/-! Which lines of the configuration are a query, and what they do. -/
namespace ModNdb.NSql
open Config (ConfigLine Dir behindQuery copySqlIntoBuffer queryLines sqlBufferLen)
open Phrase (Of)

def sqlChars (query : Text) : Text :=
  readChars (query ++ List.replicate (sqlBufferLen - query.length) 0)

def Calm (behind : Text) : Prop := ∀ c rest, skip behind.length behind = c::rest → c < 128

theorem readChars_length (bytes : Text) : (readChars bytes).length = bytes.length := by
  induction bytes with
  | nil => rfl
  | cons c bytes ih => exact congrArg Nat.succ ih

theorem sqlTokens_eq (query : Text) : sqlTokens query = scan (sqlChars query).length (sqlChars query) := by
  unfold sqlTokens tokens sqlChars
  rw [readChars_length]

theorem token_plain {kind : Kind} (plain : kind.Plain) : Of (·.kind.Plain) (Grammar.token kind) :=
  .one fun _ same => same.symm ▸ plain

theorem nsql_plain : Of (·.kind.Plain) Grammar.nsql := by
  have word (k : Keyword) : Of (·.kind.Plain) (Grammar.word k) := token_plain (by cases k <;> decide)
  have mark (m : Mark) : Of (·.kind.Plain) (Grammar.mark m) := token_plain (by cases m <;> decide)
  have name : Of (·.kind.Plain) Grammar.name := (token_plain (by decide)).map
  have value : Of (·.kind.Plain) Grammar.indexValue :=
    ((mark _).next name.map).or (name.map.or ((token_plain (by decide)).map.or (token_plain (by decide)).map))
  have index : Of (·.kind.Plain) Grammar.uniqueIndex :=
    ((word _).next (word _)).map.or ((word _).next ((word _).next name)).map
  have lookup : Of (·.kind.Plain) Grammar.oneRowWhereClause :=
    (word _).next (index.seq ((mark _).next (.list (mark _) value))).map
  have relop : Of (·.kind.Plain) Grammar.relop :=
    (mark _).map.or ((mark _).map.or ((mark _).map.or ((mark _).map.or (mark _).map)))
  have condition : Of (·.kind.Plain) Grammar.condition := (name.seq (relop.seq value)).map
  have conditions : Of (·.kind.Plain) Grammar.whereClause := (word _).next (.list (word _) condition)
  have scanIndex : Of (·.kind.Plain) Grammar.scanIndex := name.map.or ((word _).map.or Of.empty.map)
  have indexScan : Of (·.kind.Plain) Grammar.indexScan :=
    (word _).next ((word _).next (scanIndex.seq (conditions.or Of.empty.map)))
  have order : Of (·.kind.Plain) Grammar.order := (word _).map.or (word _).map
  have scan : Of (·.kind.Plain) Grammar.scanPlan :=
    (word _).next (((word _).next (word _)).map.or (indexScan.seq ((word _).next order).optional).map)
  have plan : Of (·.kind.Plain) Grammar.queryPlan := lookup.map.or scan
  have column : Of (·.kind.Plain) Grammar.column := name.seq ((word _).next name).optional
  have table : Of (·.kind.Plain) Grammar.tableSpec :=
    (((token_plain (by decide)).map.before (mark _)).optional.seq name).map
  have columns : Of (·.kind.Plain) Grammar.columns := (mark _).map.or (Of.list (mark _) column).map
  have select : Of (·.kind.Plain) Grammar.selectQuery :=
    ((word _).next (columns.seq ((word _).next (table.seq plan.optional)))).map
  have delete : Of (·.kind.Plain) Grammar.deleteQuery :=
    ((word _).next ((word _).next (table.seq lookup))).map
  exact (select.or (delete.or plan.map)).before (mark _)

theorem nameKind_tame (word behind : Text) : nameKind word behind ≠ .wild := by
  unfold nameKind
  split_ifs
  · decide
  · decide
  · split <;> exact nofun

theorem nextToken_wild (c : UInt8) (rest : Text) : (nextToken c rest).1.kind = .wild ↔ 128 ≤ c := by
  have bound (alone withEq : Mark) : (boundToken c alone withEq rest).1.kind ≠ .wild := by
    unfold boundToken
    split <;> exact nofun
  by_cases wild : 128 ≤ c
  · refine iff_of_true ?_ wild
    unfold nextToken
    rw [if_pos wild]
  · refine iff_of_false ?_ wild
    unfold nextToken
    rw [if_neg wild]
    split_ifs
    · exact nameKind_tame _ _
    · unfold numberToken
      dsimp only
      split
      · dsimp only
        split <;> exact nofun
      · exact nofun
    · unfold stringToken
      dsimp only
      split <;> exact nofun
    · exact bound _ _
    · exact bound _ _
    · split <;> exact nofun

theorem calm_iff (behind : Text) : Tame (scan behind.length behind) ↔ Calm behind := by
  unfold Calm
  cases skipped : skip behind.length behind with
  | nil =>
    rw [scan_end behind skipped]
    exact iff_of_true (show Kind.eof ≠ .wild by decide) nofun
  | cons c rest =>
    rw [scan_next behind c rest skipped]
    refine (not_congr (nextToken_wild c rest)).trans ?_
    rw [UInt8.not_le]
    constructor
    · rintro below _ _ ⟨⟩
      exact below
    · exact fun all => all c rest rfl

/-- The text of a query, from its characters to what it does. -/
theorem compileQuery_text (query : Text) (dir dir' : Dir) : compileQuery query dir = (.ok (),dir') ↔
    ∃ q used rest, Grammar.nsql q used ∧ Laid used (sqlChars query) rest ∧ Calm rest ∧
      q.run dir = (.ok (),dir') := by
  rw [compileQuery_tokens,sqlTokens_eq]
  constructor
  · rintro ⟨q,used,more,read,tame,spelled,ran⟩
    obtain ⟨rest,laid,rfl⟩ := (scan_laid used (nsql_plain q used spelled) _ more).mp read
    exact ⟨q,used,rest,spelled,laid,(calm_iff rest).mp tame,ran⟩
  · rintro ⟨q,used,rest,spelled,laid,calm,ran⟩
    exact ⟨q,used,_,(scan_laid used (nsql_plain q used spelled) _ _).mpr ⟨rest,laid,rfl⟩,
      (calm_iff rest).mpr calm,spelled,ran⟩

def copiedText (lines : List ConfigLine) : Text := (queryLines lines).flatMap ConfigLine.copied

theorem copySqlIntoBuffer_run (line : ConfigLine) (next : List ConfigLine) :
    ((copySqlIntoBuffer line next).error = none ↔ (copiedText (line::next)).length < sqlBufferLen) ∧
      ((copySqlIntoBuffer line next).error = none →
        (copySqlIntoBuffer line next).buffer.text = copiedText (line::next) ∧
        (copySqlIntoBuffer line next).left = behindQuery (line::next)) := by
  obtain ⟨_,spec⟩ := Config.copyLines_spec (line::next) .empty Config.empty_near
  unfold copySqlIntoBuffer Config.finishCopy
  dsimp only
  have terminated : ∀ b : Config.SqlBuffer, b.terminate.room = true ↔ b.text.length < sqlBufferLen :=
    fun b => Config.room_iff b.terminate
  rcases spec with ⟨copied,left⟩ | ⟨full,within⟩
  · have same : (Config.copyLines (line::next) .empty true).1.text = copiedText (line::next) := copied
    split
    · next room =>
      rw [terminated,same] at room
      exact ⟨iff_of_true rfl room,fun _ => ⟨same,left⟩⟩
    · next room =>
      rw [terminated,same] at room
      exact ⟨iff_of_false nofun room,nofun⟩
  · rw [Bool.eq_false_iff,Ne,Config.room_iff] at full
    rw [if_neg (mt (terminated _).mp full)]
    refine ⟨iff_of_false nofun fun fits => full ?_,nofun⟩
    exact Nat.lt_of_le_of_lt within fits

theorem sqlContainer_tooLong (line : ConfigLine) (next : List ConfigLine) (message : Text)
    (error : (copySqlIntoBuffer line next).error = some message) :
    sqlContainer true line next = Config.refuse message := by
  unfold sqlContainer
  rw [if_pos rfl]
  dsimp only
  rw [error]

theorem sqlContainer_fits (line : ConfigLine) (next : List ConfigLine)
    (fits : (copySqlIntoBuffer line next).error = none) : sqlContainer true line next =
      compileQuery (copySqlIntoBuffer line next).buffer.text >>= fun _ =>
        pure (copySqlIntoBuffer line next).left := by
  unfold sqlContainer
  rw [if_pos rfl]
  dsimp only
  rw [fits]

/-- The lines of a section are accepted by `sql_container` exactly if they fit into the buffer and their
text is a query of the grammar, each token written as it has to be and with blanks and comments between
them, whose actions the configuration accepts; it then acts as the query says, and the server reads on
behind the line of the semicolon. -/
theorem sqlContainer_iff (inLocation : Bool) (line : ConfigLine) (next left : List ConfigLine)
    (dir dir' : Dir) : sqlContainer inLocation line next dir = (.ok left,dir') ↔
      inLocation = true ∧ (copiedText (line::next)).length < sqlBufferLen ∧
      left = behindQuery (line::next) ∧
      ∃ q used rest, Grammar.nsql q used ∧ Laid used (sqlChars (copiedText (line::next))) rest ∧ Calm rest ∧
        q.run dir = (.ok (),dir') := by
  obtain ⟨fits,copied⟩ := copySqlIntoBuffer_run line next
  rw [← compileQuery_text,← fits]
  cases inLocation with
  | false =>
    refine iff_of_false ?_ fun both => nomatch both.1
    rintro ⟨⟩
  | true =>
    cases error : (copySqlIntoBuffer line next).error with
    | some message =>
      rw [sqlContainer_tooLong line next message error]
      refine iff_of_false ?_ fun both => nomatch both.2.1
      rintro ⟨⟩
    | none =>
      rw [sqlContainer_fits line next error]
      obtain ⟨same,behind⟩ := copied error
      rw [same,behind]
      constructor
      · intro ran
        obtain ⟨_,middle,compiled,done⟩ := Prog.bind_inv ran
        cases done
        exact ⟨rfl,rfl,rfl,compiled⟩
      · rintro ⟨_,_,rfl,compiled⟩
        exact Prog.bind_ok _ compiled

end ModNdb.NSql
