import ModNdb.JSON.Members
import ModNdb.Query.Body

/-! A request body with and without a byte order mark. -/
namespace ModNdb.Query
open JSON (tokens parse runActions utf8Read utf8Chars scannerInit Decodes Reading)

def byteOrderMark : Text := [0xEF,0xBB,0xBF]

/-- JSON.atg accepts the characters of a body. -/
def Accepted (body : Text) : Prop :=
  ∃ chars, scannerInit body = some chars ∧ (parse (tokens chars)).2.erroneous = false

/-- The form table that `read_jsonrequest` leaves. -/
def formOf (body : Text) : Except Crash FormTable :=
  (readBody .jsonrequest (some body) body.length).map Prod.snd

/-- The mark makes no difference to the form table, and no assertion fails. -/
structure ReadAlike (body : Text) : Prop where
  same : formOf (byteOrderMark ++ body) = formOf body
  plain : formOf body ≠ .error .assertion
  marked : formOf (byteOrderMark ++ body) ≠ .error .assertion

/-- What `read_jsonrequest` makes of the characters of a body. -/
def formOfChars (chars : List Nat) : Except Crash FormTable :=
  if (JSON.scanned (tokens chars)).all JSON.Token.fits then
    match runActions (parse (tokens chars)).2.actions .init with
    | (.ok (),r) => .ok r.form
    | (.error crash,_) => .error crash
  else .error .exit

theorem formOf_chars (body : Text) (chars : List Nat) (begun : scannerInit body = some chars) :
    formOf body = formOfChars chars := by
  unfold formOf readBody readJsonrequest formOfChars
  rw [Option.getD_some,List.take_length,begun]
  dsimp only
  by_cases short : (JSON.scanned (tokens chars)).all JSON.Token.fits = true
  · rw [if_pos short,if_pos short]
    rcases runActions (parse (tokens chars)).2.actions .init with ⟨⟨⟩ | ⟨⟩,r⟩ <;> rfl
  · rw [if_neg short,if_neg short]
    rfl

section
variable (body : Text) (ascii : ∀ b ∈ body, b < 128)
include ascii

theorem utf8Chars_ascii : utf8Chars body.length body = body.map UInt8.toNat := by
  induction body with
  | nil => rfl
  | cons b body ih =>
    obtain ⟨first,rest⟩ := List.forall_mem_cons.mp ascii
    have read : utf8Read (b::body) = (b.toNat,body) := by
      unfold utf8Read
      exact if_pos first
    have some : ¬b.toNat = JSON.eof := by
      have byte := b.toNat_lt
      unfold JSON.eof
      omega
    rw [List.length_cons,utf8Chars,read]
    dsimp only
    rw [if_neg some,ih rest]
    rfl

theorem scannerInit_ascii : scannerInit body = some (body.map UInt8.toNat) := by
  have other : body.head? ≠ some 0xEF := by
    intro first
    have small := ascii 0xEF (List.mem_of_head? first)
    exact absurd small (by decide)
  unfold scannerInit
  split
  · exact absurd rfl other
  · exact absurd rfl other
  · rfl

theorem scannerInit_marked :
    scannerInit (byteOrderMark ++ body) = some (body.map UInt8.toNat) := by
  rw [← utf8Chars_ascii body ascii]
  rfl

end

theorem setItem_quiet (r : Reading) : (JSON.setItem r).1 ≠ .error .assertion := by
  unfold JSON.setItem
  cases r.key <;> cases r.val <;> nofun

/-- Where the texts decode, no assertion fails. -/
theorem runActions_quiet (actions : List JSON.Action) (decodes : Decodes actions) (r : Reading) :
    (runActions actions r).1 ≠ .error .assertion := by
  induction actions generalizing r with
  | nil => nofun
  | cons action actions ih =>
    obtain ⟨first,rest⟩ := (JSON.Decodes.append [action] actions).mp decodes
    have one : (action.run r).1 ≠ .error .assertion := by
      cases action with
      | name token =>
        obtain ⟨bytes,made⟩ := first _ List.mem_cons_self token rfl
        unfold JSON.Action.run
        dsimp only
        rw [Prog.bind_ok _ (JSON.blob_ok token bytes made r)]
        nofun
      | value token =>
        obtain ⟨bytes,made⟩ := first _ List.mem_cons_self token rfl
        unfold JSON.Action.run
        dsimp only
        rw [Prog.bind_ok _ (JSON.blob_ok token bytes made r)]
        nofun
      | null => nofun
      | setItem => exact setItem_quiet r
    rw [JSON.runActions_cons]
    rcases ran : action.run r with ⟨crash | ⟨⟩,middle⟩
    · rw [Prog.bind_error _ ran]
      rw [ran] at one
      exact one
    · rw [Prog.bind_ok _ ran]
      exact ih rest middle

/-- What is accepted is read without a failed assertion, up to a byte order mark of its own. -/
theorem formOfChars_quiet (body : Text)
    (clean : (parse (tokens (body.map UInt8.toNat))).2.erroneous = false) :
    formOfChars (body.map UInt8.toNat) ≠ .error .assertion := by
  obtain ⟨starts,d,read⟩ := JSON.accepted_document _ (JSON.tokens_canonical _) (JSON.tokens_real _) clean
  rw [read] at starts
  obtain ⟨t,parsed⟩ := JSON.parse_document d starts
  have quiet := runActions_quiet d.actions (JSON.document_decodes body d read) .init
  unfold formOfChars
  rw [read,parsed]
  dsimp only
  split_ifs
  · rcases ran : runActions d.actions .init with ⟨crash | ⟨⟩,r⟩
    · rw [ran] at quiet
      dsimp only
      exact fun same => quiet (congrArg Except.error (Except.error.inj same))
    · nofun
  · nofun

/-- Bodies of ASCII characters read the same. -/
theorem read_alike (body : Text) (accepted : Accepted body) (ascii : ∀ b ∈ body, b < 128) :
    ReadAlike body := by
  obtain ⟨chars,begun,clean⟩ := accepted
  obtain rfl := Option.some.inj ((scannerInit_ascii body ascii).symm.trans begun)
  have quiet := formOfChars_quiet body clean
  have plain := formOf_chars body _ begun
  have marked := formOf_chars (byteOrderMark ++ body) _ (scannerInit_marked body ascii)
  exact ⟨marked.trans plain.symm,plain ▸ quiet,marked ▸ quiet⟩

theorem read_alike_object : ReadAlike (text "\x7b\"a\":\"1\"\x7d") :=
  read_alike _ ⟨_,scannerInit_ascii _ (List.forall_mem_iff_getElem.mpr (by decide)),by decide⟩
    (List.forall_mem_iff_getElem.mpr (by decide))

def accentBody : Text := text "\x7b\"a\":\"" ++ [0xC3,0xA9] ++ text "\"\x7d"

/-- The letter has two bytes without the mark, and one with it. -/
theorem accent_differs : Accepted accentBody ∧
    (formOf accentBody).map (·.getItem (text "a")) = .ok (some [0xC3,0xA9]) ∧
    (formOf (byteOrderMark ++ accentBody)).map (·.getItem (text "a")) = .ok (some [0xE9]) ∧
    ¬ReadAlike accentBody := by
  have plain : (formOf accentBody).map (·.getItem (text "a")) = .ok (some [0xC3,0xA9]) := by
    decide +kernel
  have marked : (formOf (byteOrderMark ++ accentBody)).map (·.getItem (text "a")) =
      .ok (some [0xE9]) := by decide +kernel
  refine ⟨⟨_,rfl,by decide⟩,plain,marked,fun alike => ?_⟩
  rw [alike.same,plain] at marked
  exact absurd marked (by decide)

end ModNdb.Query
