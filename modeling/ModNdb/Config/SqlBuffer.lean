import ModNdb.Text

/-! Copying an N-SQL query from the configuration into a buffer (config.cc). Apache 2 has
the lines in a tree, by their first words and the rest; Apache 1.3 reads the characters of the
file. -/
namespace ModNdb.Config

/-- `MAX_STRING_LEN` of httpd.h, twice. -/
def sqlBufferLen : Nat := 8192 * 2

/-- The memory behind `query_buff`: what stands in front of `end`, whether there is a NUL at
`end`, and how far it was written. -/
structure SqlBuffer where
  text : Text
  terminated : Bool
  reach : Nat

def SqlBuffer.empty : SqlBuffer := ⟨[],true,0⟩

/-- `*end++ = c` -/
def SqlBuffer.put (b : SqlBuffer) (c : UInt8) : SqlBuffer :=
  ⟨b.text ++ [c],false,max b.reach (b.text.length + 1)⟩

/-- `*end = 0` -/
def SqlBuffer.terminate (b : SqlBuffer) : SqlBuffer :=
  ⟨b.text,true,max b.reach (b.text.length + 1)⟩

def SqlBuffer.room (b : SqlBuffer) : Bool := b.text.length < sqlBufferLen

/-- The answer of `copy_sql_into_buffer`, and where the server reads on. -/
structure Copied (σ : Type) where
  error : Option Text
  buffer : SqlBuffer
  left : σ

def finishCopy {σ : Type} (b : SqlBuffer) (unread left : σ) : Copied σ :=
  if b.terminate.room then ⟨none,b.terminate,left⟩
  else ⟨some (text "N-SQL query too long (missing semicolon?)."),b.terminate,unread⟩

/-- `ap_directive_t` -/
structure ConfigLine where
  directive : Text
  args : Text
  deriving DecidableEq

/-- `while((*end = *pos++)) if(*end++ == ';') more_query = 0;` -/
def copyWord : Text → SqlBuffer → Bool → SqlBuffer × Bool
  | [], b, more => (b.terminate,more)
  | c::pos, b, more => copyWord pos (b.put c) (more && c ≠ code ';')

def ConfigLine.copy (line : ConfigLine) (b : SqlBuffer) : SqlBuffer × Bool :=
  let word := copyWord line.directive b true
  if word.1.room ∧ word.2 then
    let rest := copyWord line.args (word.1.put (code ' ')) word.2
    (rest.1.put (code '\n'),rest.2)
  else word

/-- The loop over the lines, and the line it stops at. -/
def copyLines : List ConfigLine → SqlBuffer → Bool → SqlBuffer × List ConfigLine
  | [], b, _ => (b,[])
  | line::lines, b, more =>
    if more ∧ b.room then copyLines lines (line.copy b).1 (line.copy b).2 else (b,line::lines)

/-- `copy_sql_into_buffer` of Apache 2, called for the first of these lines. The others are
`cmd->directive->next`, which only a success changes. -/
def copySqlIntoBuffer (line : ConfigLine) (next : List ConfigLine) : Copied (List ConfigLine) :=
  let copied := copyLines (line::next) .empty true
  finishCopy copied.1 next copied.2

/-- `cmd->cmd->cmd_data` of the directives that `sql_container` handles. -/
inductive SqlKeyword | select | delete | where_ | using_
  deriving DecidableEq

def SqlKeyword.text : SqlKeyword → Text
  | .select => ModNdb.text "SELECT "
  | .delete => ModNdb.text "DELETE "
  | .where_ => ModNdb.text "WHERE "
  | .using_ => ModNdb.text "USING "

/-- `ap_cpystrn(query_buff, keyword, size)`, with the pointer it returns. -/
def SqlBuffer.cpystrn (b : SqlBuffer) (source : Text) (size : Nat) : SqlBuffer :=
  ((source.take (size - 1)).foldl SqlBuffer.put b).terminate

/-- The rest of the line, and whether the query ends there. -/
def copyArgs : Text → SqlBuffer → Bool → SqlBuffer × Bool
  | [], b, ended => (b.terminate,ended)
  | c::pos, b, ended =>
    copyArgs pos (b.put c) (ended || c = code ';' || (b.put c).text.length = sqlBufferLen)

/-- `ap_cfg_getc`: at the end of the file it is -1. -/
def cfgGetc : Text → UInt8 × Text
  | [] => (255,[])
  | c::file => (c,file)

/-- The loop over the characters of the file; there is so much room in front of `buff_end`. -/
def copyFile : Nat → Text → SqlBuffer → SqlBuffer × Text
  | 0, file, b => (b,file)
  | room + 1, file, b =>
    let c := (cfgGetc file).1
    if c = 0 then (b,(cfgGetc file).2)
    else if c = code ';' ∨ room = 0 then (b.put c,(cfgGetc file).2)
    else copyFile room (cfgGetc file).2 (b.put c)

/-- `copy_sql_into_buffer` of Apache 1.3 -/
def copySqlFromFile (keyword : SqlKeyword) (args file : Text) : Copied Text :=
  let line := copyArgs args (SqlBuffer.empty.cpystrn keyword.text 10) false
  let copied := if line.2 then (line.1,file)
    else copyFile (sqlBufferLen - line.1.text.length) file line.1
  finishCopy copied.1 copied.2 copied.2

/-- What a call is for: it stays inside the buffer, it says whether the query fits, and if so
it leaves there the query and reads on behind it. -/
structure Copied.Lawful {σ : Type} (c : Copied σ) (query : Text) (behind : σ) : Prop where
  inside : c.buffer.reach ≤ sqlBufferLen
  tooLong : c.error ≠ none ↔ sqlBufferLen ≤ query.length
  copied : c.error = none → c.buffer.text = query ∧ c.buffer.terminated = true ∧ c.left = behind

def ConfigLine.EndsQuery (line : ConfigLine) : Prop :=
  code ';' ∈ line.directive ∨ code ';' ∈ line.args

instance (line : ConfigLine) : Decidable line.EndsQuery := inferInstanceAs (Decidable (_ ∨ _))

/-- The text of a line; where a single word ends the query, there is nothing behind it. -/
def ConfigLine.text (line : ConfigLine) : Text :=
  line.directive ++ if code ';' ∈ line.directive ∧ line.args = [] then []
    else [code ' '] ++ line.args ++ [code '\n']

def queryLines : List ConfigLine → List ConfigLine
  | [] => []
  | line::lines => line :: if line.EndsQuery then [] else queryLines lines

def behindQuery : List ConfigLine → List ConfigLine
  | [] => []
  | line::lines => if line.EndsQuery then lines else behindQuery lines

def queryText (lines : List ConfigLine) : Text := (queryLines lines).flatMap ConfigLine.text

/-- A line whose first word ends the query, with more behind that word. -/
def ConfigLine.Tails (line : ConfigLine) : Prop := code ';' ∈ line.directive ∧ line.args ≠ []

def throughLine (file : Text) : Text :=
  file.takeWhile (· ≠ code ';') ++ (file.dropWhile (· ≠ code ';')).takeWhile (· ≠ code '\n')

def fileQuery (keyword : SqlKeyword) (args file : Text) : Text :=
  keyword.text ++ args ++ if code ';' ∈ args then [] else [code '\n'] ++ throughLine file

def behindFileQuery (args file : Text) : Text :=
  if code ';' ∈ args then file
  else (file.dropWhile (· ≠ code ';')).dropWhile (· ≠ code '\n')

def SqlBuffer.Near (b : SqlBuffer) : Prop := b.reach ≤ b.text.length + 1

theorem put_near (b : SqlBuffer) (c : UInt8) (near : b.Near) : (b.put c).Near := by
  unfold SqlBuffer.Near SqlBuffer.put at *
  simp only [List.length_append,List.length_singleton]
  omega

theorem terminate_near (b : SqlBuffer) (near : b.Near) : b.terminate.Near := by
  unfold SqlBuffer.Near SqlBuffer.terminate at *
  dsimp only
  omega

/-- The buffer is in order exactly if the query was copied and fits: the terminator of one
that is too long is outside. -/
theorem finishCopy_lawful {σ : Type} (b : SqlBuffer) (unread left behind : σ) (query : Text)
    (near : b.Near) : (finishCopy b unread left).Lawful query behind ↔
      b.text = query ∧ left = behind ∧ query.length < sqlBufferLen := by
  have reach : b.terminate.reach = b.text.length + 1 := Nat.max_eq_right near
  unfold finishCopy
  by_cases fits : b.text.length < sqlBufferLen
  · rw [if_pos (show b.terminate.room = true from decide_eq_true fits)]
    constructor
    · intro lawful
      obtain ⟨same,-,left⟩ := lawful.copied rfl
      refine ⟨same,left,?_⟩
      rw [← show b.text = query from same]
      exact fits
    · rintro ⟨rfl,rfl,-⟩
      exact {
        inside := reach.trans_le fits
        tooLong := iff_of_false (fun error => error rfl) (Nat.not_le_of_lt fits)
        copied := fun _ => ⟨rfl,rfl,rfl⟩ }
  · rw [if_neg (show ¬b.terminate.room = true from fun room => fits (of_decide_eq_true room))]
    refine iff_of_false (fun lawful => ?_) (fun copied => ?_)
    · have inside : b.terminate.reach ≤ sqlBufferLen := lawful.inside
      omega
    · rw [copied.1] at fits
      exact fits copied.2.2

theorem copyWord_spec (pos : Text) (b : SqlBuffer) (more : Bool) (near : b.Near) :
    (copyWord pos b more).1.text = b.text ++ pos ∧ (copyWord pos b more).1.Near ∧
      ((copyWord pos b more).2 = true ↔ more = true ∧ code ';' ∉ pos) := by
  induction pos generalizing b more with
  | nil => exact ⟨(List.append_nil _).symm,terminate_near b near,by simp [copyWord]⟩
  | cons c pos ih =>
    obtain ⟨copied,nearEnd,goesOn⟩ := ih (b.put c) (more && c ≠ code ';') (put_near b c near)
    refine ⟨copied.trans (List.append_assoc b.text [c] pos),nearEnd,goesOn.trans ?_⟩
    rw [Bool.and_eq_true,decide_eq_true_eq,List.mem_cons,not_or,and_assoc,ne_comm]

def ConfigLine.copied (line : ConfigLine) : Text :=
  line.directive ++ if code ';' ∈ line.directive then []
    else [code ' '] ++ line.args ++ [code '\n']

theorem copied_eq (line : ConfigLine) (whole : ¬line.Tails) : line.copied = line.text := by
  unfold ConfigLine.copied ConfigLine.text
  by_cases ends : code ';' ∈ line.directive
  · rw [if_pos ends,if_pos ⟨ends,by_contra fun some_args => whole ⟨ends,some_args⟩⟩]
  · rw [if_neg ends,if_neg fun both => ends both.1]

theorem copied_lt (line : ConfigLine) (tails : line.Tails) :
    line.copied.length < line.text.length := by
  unfold ConfigLine.copied ConfigLine.text
  rw [if_pos tails.1,if_neg fun both => tails.2 both.2,List.length_append,List.length_append]
  simp

theorem copied_le (line : ConfigLine) : line.copied.length ≤ line.text.length := by
  by_cases tails : line.Tails
  · exact Nat.le_of_lt (copied_lt line tails)
  · rw [copied_eq line tails]

theorem copied_lines_le (lines : List ConfigLine) :
    (lines.flatMap ConfigLine.copied).length ≤ (lines.flatMap ConfigLine.text).length := by
  induction lines with
  | nil => exact Nat.le_refl _
  | cons line lines ih =>
    rw [List.flatMap_cons,List.flatMap_cons,List.length_append,List.length_append]
    exact Nat.add_le_add (copied_le line) ih

/-- The lines are copied as they are, unless there is more behind the word that ends the
query. -/
theorem copied_lines_iff (lines : List ConfigLine) :
    lines.flatMap ConfigLine.copied = lines.flatMap ConfigLine.text ↔
      ∀ line ∈ lines, ¬line.Tails := by
  constructor
  · intro same
    induction lines with
    | nil => simp
    | cons line lines ih =>
      rw [List.flatMap_cons,List.flatMap_cons] at same
      have lengths := congrArg List.length same
      rw [List.length_append,List.length_append] at lengths
      have rest := copied_lines_le lines
      have whole : ¬line.Tails := by
        intro tails
        have less := copied_lt line tails
        omega
      rw [copied_eq line whole] at same
      rw [List.forall_mem_cons]
      exact ⟨whole,ih (List.append_cancel_left same)⟩
  · intro whole
    exact List.flatMap_congr fun line inside => copied_eq line (whole line inside)

theorem room_iff (b : SqlBuffer) : b.room = true ↔ b.text.length < sqlBufferLen := by
  unfold SqlBuffer.room
  exact decide_eq_true_iff

/-- A line is copied, or the buffer is full behind its first word. -/
theorem copy_spec (line : ConfigLine) (b : SqlBuffer) (near : b.Near) :
    (line.copy b).1.Near ∧
    (((line.copy b).1.text = b.text ++ line.copied ∧
        ((line.copy b).2 = true ↔ ¬line.EndsQuery)) ∨
      (line.copy b).1.room = false ∧
        (line.copy b).1.text.length ≤ (b.text ++ line.copied).length) := by
  obtain ⟨word,nearWord,goesOn⟩ := copyWord_spec line.directive b true near
  unfold ConfigLine.copy ConfigLine.copied
  dsimp only
  by_cases ends : code ';' ∈ line.directive
  · have stops : ¬(copyWord line.directive b true).2 = true := fun more => (goesOn.mp more).2 ends
    rw [if_neg fun both => stops both.2,if_pos ends,List.append_nil]
    exact ⟨nearWord,.inl ⟨word,iff_of_false stops fun other => other (.inl ends)⟩⟩
  · have more : (copyWord line.directive b true).2 = true := goesOn.mpr ⟨rfl,ends⟩
    rw [if_neg ends]
    by_cases room : (copyWord line.directive b true).1.room = true
    · rw [if_pos ⟨room,more⟩]
      obtain ⟨rest,nearRest,goesOnRest⟩ := copyWord_spec line.args
        ((copyWord line.directive b true).1.put (code ' ')) (copyWord line.directive b true).2
        (put_near _ _ nearWord)
      refine ⟨put_near _ _ nearRest,.inl ⟨?_,?_⟩⟩
      · unfold SqlBuffer.put at rest ⊢
        dsimp only at rest ⊢
        rw [rest,word]
        simp only [List.append_assoc]
      · rw [goesOnRest,more]
        unfold ConfigLine.EndsQuery
        simp [ends]
    · rw [if_neg fun both => room both.1]
      refine ⟨nearWord,.inr ⟨by simpa using room,?_⟩⟩
      rw [word]
      simp

theorem copyLines_stop (lines : List ConfigLine) (b : SqlBuffer) (more : Bool)
    (stop : ¬(more = true ∧ b.room = true)) : copyLines lines b more = (b,lines) := by
  cases lines with
  | nil => rfl
  | cons line lines =>
    unfold copyLines
    rw [if_neg stop]

/-- The loop copies the lines of the query, or it fills the buffer. -/
theorem copyLines_spec (lines : List ConfigLine) (b : SqlBuffer) (near : b.Near) :
    (copyLines lines b true).1.Near ∧
    (((copyLines lines b true).1.text = b.text ++ (queryLines lines).flatMap ConfigLine.copied ∧
        (copyLines lines b true).2 = behindQuery lines) ∨
      (copyLines lines b true).1.room = false ∧ (copyLines lines b true).1.text.length ≤
        (b.text ++ (queryLines lines).flatMap ConfigLine.copied).length) := by
  induction lines generalizing b with
  | nil => exact ⟨near,.inl ⟨(List.append_nil _).symm,rfl⟩⟩
  | cons line lines ih =>
    by_cases room : b.room = true
    swap
    · rw [copyLines_stop _ b true fun both => room both.2]
      exact ⟨near,.inr ⟨by simpa using room,by simp⟩⟩
    unfold copyLines
    rw [if_pos ⟨rfl,room⟩]
    obtain ⟨nearLine,⟨copied,goesOn⟩ | ⟨full,within⟩⟩ := copy_spec line b near
    · unfold queryLines behindQuery
      by_cases ends : line.EndsQuery
      · rw [copyLines_stop _ _ _ fun both => goesOn.mp both.1 ends,if_pos ends,if_pos ends]
        refine ⟨nearLine,.inl ⟨?_,rfl⟩⟩
        rw [copied,List.flatMap_singleton]
      · rw [goesOn.mpr ends,if_neg ends,if_neg ends]
        obtain ⟨nearEnd,⟨all,left⟩ | ⟨full,within⟩⟩ := ih (line.copy b).1 nearLine
        · refine ⟨nearEnd,.inl ⟨?_,left⟩⟩
          rw [all,copied,List.flatMap_cons,List.append_assoc]
        · refine ⟨nearEnd,.inr ⟨full,?_⟩⟩
          rw [copied,List.append_assoc] at within
          rw [List.flatMap_cons]
          exact within
    · rw [copyLines_stop _ _ _ fun both => by simp [full] at both]
      refine ⟨nearLine,.inr ⟨full,?_⟩⟩
      unfold queryLines
      rw [List.flatMap_cons,← List.append_assoc,List.length_append]
      exact Nat.le_add_right_of_le within

theorem empty_near : SqlBuffer.empty.Near := Nat.zero_le _

theorem copySqlIntoBuffer_lawful (line : ConfigLine) (next : List ConfigLine) :
    (copySqlIntoBuffer line next).Lawful (queryText (line::next)) (behindQuery (line::next)) ↔
      (queryText (line::next)).length < sqlBufferLen ∧
      ∀ l ∈ queryLines (line::next), ¬l.Tails := by
  obtain ⟨near,spec⟩ := copyLines_spec (line::next) .empty empty_near
  unfold copySqlIntoBuffer
  rw [finishCopy_lawful _ _ _ _ _ near,← copied_lines_iff]
  rcases spec with ⟨copied,left⟩ | ⟨full,within⟩
  · rw [copied,left]
    exact ⟨fun whole => ⟨whole.2.2,whole.1⟩,fun whole => ⟨whole.2,rfl,whole.1⟩⟩
  · rw [Bool.eq_false_iff,Ne,room_iff,Nat.not_lt] at full
    refine iff_of_false (fun whole => ?_) (fun whole => ?_)
    · rw [whole.1] at full
      exact Nat.not_lt_of_le full whole.2.2
    · rw [whole.2] at within
      exact Nat.not_lt_of_le (Nat.le_trans full within) whole.1

theorem copyArgs_spec (pos : Text) (b : SqlBuffer) (ended : Bool) (near : b.Near) :
    (copyArgs pos b ended).1.text = b.text ++ pos ∧ (copyArgs pos b ended).1.Near ∧
      (ended = true ∨ code ';' ∈ pos → (copyArgs pos b ended).2 = true) ∧
      (b.room = true → (copyArgs pos b ended).2 = true ∨ (copyArgs pos b ended).1.room = true) := by
  induction pos generalizing b ended with
  | nil => exact ⟨(List.append_nil _).symm,terminate_near b near,by simp [copyArgs],.inr⟩
  | cons c pos ih =>
    obtain ⟨copied,nearEnd,ends,stays⟩ := ih (b.put c)
      (ended || c = code ';' || (b.put c).text.length = sqlBufferLen) (put_near b c near)
    refine ⟨copied.trans (List.append_assoc b.text [c] pos),nearEnd,fun before => ?_,fun room => ?_⟩
    · apply ends
      rcases before with before | inside
      · exact .inl (by simp [before])
      · rcases List.mem_cons.mp inside with rfl | inside
        · exact .inl (by simp)
        · exact .inr inside
    · by_cases full : (b.put c).text.length = sqlBufferLen
      · exact .inl (ends (.inl (by simp [full])))
      · apply stays
        rw [room_iff] at room ⊢
        have more : (b.put c).text.length = b.text.length + 1 := by simp [SqlBuffer.put]
        omega

theorem throughLine_cons (c : UInt8) (file : Text) (other : c ≠ code ';') :
    throughLine (c::file) = c :: throughLine file := by
  unfold throughLine
  rw [List.takeWhile_cons_of_pos (by simpa using other),
    List.dropWhile_cons_of_pos (by simpa using other),List.cons_append]

/-- What is read from the file is not longer than the lines of the query, or the buffer is
full; so it is at the end of the file. -/
theorem copyFile_spec (room : Nat) (file : Text) (b : SqlBuffer) (near : b.Near)
    (left : b.text.length + room = sqlBufferLen) :
    (copyFile room file b).1.Near ∧
    ((copyFile room file b).1.text.length ≤ b.text.length + (throughLine file).length ∧ file ≠ [] ∨
      (copyFile room file b).1.room = false) := by
  induction room generalizing file b with
  | zero =>
    refine ⟨near,.inr ?_⟩
    rw [Bool.eq_false_iff,Ne,room_iff]
    exact Nat.not_lt_of_le (Nat.le_of_eq left.symm)
  | succ room ih =>
    have more (c : UInt8) : (b.put c).text.length = b.text.length + 1 := by simp [SqlBuffer.put]
    have last (c : UInt8) (no_room : room = 0) : (b.put c).room = false := by
      rw [Bool.eq_false_iff,Ne,room_iff,more]
      omega
    have next (c : UInt8) (rest : Text) := ih rest (b.put c) (put_near b c near)
      (by rw [more]; omega)
    unfold copyFile
    cases file with
    | nil =>
      dsimp only [cfgGetc]
      rw [if_neg (by decide)]
      by_cases no_room : room = 0
      · rw [if_pos (.inr no_room)]
        exact ⟨put_near b _ near,.inr (last _ no_room)⟩
      · rw [if_neg (by simp [no_room,show (255 : UInt8) ≠ code ';' by decide])]
        obtain ⟨nearEnd,⟨-,some_file⟩ | full⟩ := next 255 []
        · exact absurd rfl some_file
        · exact ⟨nearEnd,.inr full⟩
    | cons c file =>
      dsimp only [cfgGetc]
      by_cases nul : c = 0
      · rw [if_pos nul]
        exact ⟨near,.inl ⟨Nat.le_add_right _ _,List.cons_ne_nil _ _⟩⟩
      rw [if_neg nul]
      by_cases semicolon : c = code ';'
      · rw [if_pos (.inl semicolon),more,semicolon]
        exact ⟨put_near b _ near,.inl ⟨by simp [throughLine,code],List.cons_ne_nil _ _⟩⟩
      by_cases no_room : room = 0
      · rw [if_pos (.inr no_room)]
        exact ⟨put_near b _ near,.inr (last _ no_room)⟩
      · rw [if_neg (not_or.mpr ⟨semicolon,no_room⟩)]
        obtain ⟨nearEnd,⟨within,-⟩ | full⟩ := next c file
        · refine ⟨nearEnd,.inl ⟨?_,List.cons_ne_nil _ _⟩⟩
          rw [throughLine_cons c file semicolon,List.length_cons]
          rw [more] at within
          omega
        · exact ⟨nearEnd,.inr full⟩

theorem cpystrn_keyword (keyword : SqlKeyword) :
    SqlBuffer.empty.cpystrn keyword.text 10 =
      ⟨keyword.text,true,keyword.text.length + 1⟩ := by
  cases keyword <;> rfl

theorem copySqlFromFile_lawful (keyword : SqlKeyword) (args file : Text) :
    (copySqlFromFile keyword args file).Lawful (fileQuery keyword args file)
        (behindFileQuery args file) ↔
      (fileQuery keyword args file).length < sqlBufferLen ∧ code ';' ∈ args := by
  have near : (SqlBuffer.empty.cpystrn keyword.text 10).Near := by
    rw [cpystrn_keyword]
    exact Nat.le_refl _
  have room : (SqlBuffer.empty.cpystrn keyword.text 10).room = true := by
    rw [cpystrn_keyword]
    cases keyword <;> decide
  obtain ⟨copied,nearLine,ends,stays⟩ := copyArgs_spec args _ false near
  rw [cpystrn_keyword] at copied ends stays nearLine room
  unfold copySqlFromFile fileQuery behindFileQuery
  dsimp only
  rw [cpystrn_keyword]
  by_cases single : code ';' ∈ args
  · rw [if_pos (ends (.inr single)),finishCopy_lawful _ _ _ _ _ nearLine,if_pos single,
      if_pos single,List.append_nil,copied]
    exact ⟨fun whole => ⟨whole.2.2,single⟩,fun whole => ⟨rfl,rfl,whole.1⟩⟩
  · refine iff_of_false (fun lawful => ?_) fun whole => single whole.2
    rw [if_neg single] at lawful
    by_cases ended : (copyArgs args ⟨keyword.text,true,keyword.text.length + 1⟩ false).2 = true
    · rw [if_pos ended] at lawful
      have same := ((finishCopy_lawful _ _ _ _ _ nearLine).mp lawful).1
      have lengths := congrArg List.length (copied.symm.trans same)
      simp only [List.length_append,List.length_singleton] at lengths
      omega
    · rw [if_neg ended] at lawful
      have roomLine := (room_iff _).mp ((stays room).resolve_left ended)
      obtain ⟨nearFile,bound⟩ := copyFile_spec _ file _ nearLine
        (Nat.add_sub_cancel' (Nat.le_of_lt roomLine))
      obtain ⟨same,-,fits⟩ := (finishCopy_lawful _ _ _ _ _ nearFile).mp lawful
      rcases bound with ⟨within,-⟩ | full
      · rw [same,copied] at within
        simp only [List.length_append,List.length_singleton] at within
        omega
      · rw [Bool.eq_false_iff,Ne,room_iff,same] at full
        exact full fits

/-- `copy_sql_into_buffer` is right about a query of Apache 2 exactly if it fits and nothing
stands behind a first word that ends it; of Apache 1.3, exactly if it fits and ends on the line
on which it begins. -/
theorem sql_copied_iff (line : ConfigLine) (next : List ConfigLine) (keyword : SqlKeyword)
    (args file : Text) :
    ((copySqlIntoBuffer line next).Lawful (queryText (line::next)) (behindQuery (line::next)) ↔
      (queryText (line::next)).length < sqlBufferLen ∧
        ∀ l ∈ queryLines (line::next), ¬l.Tails) ∧
    ((copySqlFromFile keyword args file).Lawful (fileQuery keyword args file)
        (behindFileQuery args file) ↔
      (fileQuery keyword args file).length < sqlBufferLen ∧ code ';' ∈ args) :=
  ⟨copySqlIntoBuffer_lawful line next,copySqlFromFile_lawful keyword args file⟩

def longLine (word behind : String) : ConfigLine :=
  ⟨text word,List.replicate 8000 (code 'a') ++ text behind⟩

/-- A query of three long lines, and one of two short lines, which get joined in the buffer. -/
theorem query_overflows :
    ¬(copySqlIntoBuffer (longLine "SELECT" "") [longLine "FROM" "",longLine "WHERE" ";"]).Lawful
        (queryText [longLine "SELECT" "",longLine "FROM" "",longLine "WHERE" ";"])
        (behindQuery [longLine "SELECT" "",longLine "FROM" "",longLine "WHERE" ";"]) ∧
    ¬(copySqlFromFile .select (text "id") (text "FROM t;\n")).Lawful
        (fileQuery .select (text "id") (text "FROM t;\n"))
        (behindFileQuery (text "id") (text "FROM t;\n")) := by
  constructor
  · intro lawful
    have fits := ((copySqlIntoBuffer_lawful _ _).mp lawful).1
    have goesOn (word : String) (other : code ';' ∉ text word) : ¬(longLine word "").EndsQuery := by
      rintro (inside | inside)
      · exact other inside
      · have none_inside : code ';' ∉ text "" := List.not_mem_nil
        have same := List.eq_of_mem_replicate ((List.mem_append.mp inside).resolve_right none_inside)
        exact absurd same (by decide)
    have long (word behind : String) (other : code ';' ∉ text word) :
        8000 ≤ (longLine word behind).text.length := by
      unfold ConfigLine.text
      rw [if_neg fun both => other both.1]
      simp only [longLine,List.length_append,List.length_replicate]
      omega
    have select := long "SELECT" "" (by decide)
    have from_ := long "FROM" "" (by decide)
    have where_ := long "WHERE" ";" (by decide)
    unfold queryText queryLines at fits
    rw [if_neg (goesOn "SELECT" (by decide)),queryLines,if_neg (goesOn "FROM" (by decide)),
      queryLines,List.flatMap_cons,List.flatMap_cons,List.flatMap_cons,List.length_append,
      List.length_append,List.length_append] at fits
    unfold sqlBufferLen at fits
    omega
  · intro lawful
    exact absurd ((copySqlFromFile_lawful _ _ _).mp lawful).2 (by decide)

end ModNdb.Config
