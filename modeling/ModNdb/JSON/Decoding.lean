import ModNdb.JSON.Actions
import ModNdb.JSON.InPlace

/-! Names and values of a body without a byte order mark decode: whatever the escapes in them,
`JSON_unescape` gets through. -/
namespace ModNdb.JSON

theorem ofNat_eq_iff (c : Nat) (byte : c < 256) (d : UInt8) : UInt8.ofNat c = d ↔ c = d.toNat := by
  rw [← UInt8.toNat_inj,UInt8.toNat_ofNat',Nat.mod_eq_of_lt byte]

/-- The state of a run, wherever it is between two rounds. -/
def Amid (rest : Text) (u : Unescape) : Prop := ∃ out half, Between out rest half u

theorem plain_leads (c : UInt8) (rest : Text) (u : Unescape) (some : c ≠ 0)
    (unescaped : c ≠ code '\\') (state : Amid (c::rest) u) : ∃ v, Leads 1 u v ∧ Amid rest v := by
  obtain ⟨out,half,between⟩ := state
  obtain ⟨v,ran,later⟩ := step_plain out rest half u c unescaped between
  rw [decide_eq_true some] at ran
  exact ⟨v,Leads.step Nat.one_pos ran,_,half,later⟩

/-- A character that is a byte is not cut down. -/
theorem byte_read (unit : List Nat) (string : StringUnit unit) (bytes : ∀ c ∈ unit, c < 256) :
    ¬Misread unit := by
  cases string with
  | escape e inside => exact id
  | hex a b c d digits => exact id
  | plain c inside =>
    have byte := bytes c List.mem_cons_self
    unfold isChar at inside
    simp only [decide_eq_true_eq] at inside
    rintro (none | backslash)
    · have zero : c = 0 := (ofNat_eq_iff c byte 0).mp none
      omega
    · have same : c = 92 := (ofNat_eq_iff c byte _).mp backslash
      omega

/-- The text between the quotes of a string comes out decoded. -/
theorem units_unescape (chars : List Nat) (units : Units chars) (bytes : ∀ c ∈ chars, c < 256) :
    ∃ decoded, Unescapes (chars.map UInt8.ofNat) decoded := by
  obtain ⟨units,each,rfl⟩ := units
  have made := units_made units each (fun unit inside => byte_read unit (each unit inside)
    fun c part => bytes c (List.mem_flatten.mpr ⟨unit,inside,part⟩)) [] [] rfl
  rw [List.append_nil] at made
  exact ⟨_,made⟩

theorem bare_units (chars : List Nat) (bare : Bare chars) (bytes : ∀ c ∈ chars, c < 256)
    (u : Unescape) (state : Amid (chars.map UInt8.ofNat ++ [0]) u) :
    ∃ v, Leads chars.length u v ∧ Amid [0] v := by
  induction chars generalizing u with
  | nil => exact ⟨u,⟨0,Nat.le_refl _,fun _ => rfl⟩,state⟩
  | cons c chars ih =>
    obtain ⟨some,ascii,unescaped,_⟩ := bare c List.mem_cons_self
    have byte := bytes c List.mem_cons_self
    obtain ⟨v,leads,amid⟩ := plain_leads (UInt8.ofNat c) _ u
      (fun none => by
        have zero : c = 0 := (ofNat_eq_iff c byte 0).mp none
        omega)
      (fun backslash => by
        have same : c = 92 := (ofNat_eq_iff c byte _).mp backslash
        omega) state
    obtain ⟨w,leads',ends⟩ := ih (fun d inside => bare d (List.mem_cons_of_mem c inside))
      (fun d inside => bytes d (List.mem_cons_of_mem c inside)) v amid
    refine ⟨w,?_,ends⟩
    rw [List.length_cons,Nat.add_comm]
    exact leads.trans leads'

theorem blob_of_unescapes (token : Token) (decoded : Text) (unescapes : Unescapes token.chars decoded) :
    jsonBlob token = .ok decoded := by
  obtain ⟨buffer,ran,front⟩ := unescapes
  unfold jsonBlob
  rw [ran]
  exact congrArg Except.ok front

theorem string_chars (kind : Kind) (inner : List Nat) :
    (Token.mk kind (34 :: (inner ++ [34]))).chars = inner.map UInt8.ofNat := by
  unfold Token.chars
  simp

/-- Every name and every scalar decodes where the characters are bytes. -/
theorem lexeme_decodes (token : Token) (lexeme : Lexeme token) (scalar : token.kind.isScalar = true)
    (bytes : ∀ c ∈ token.val, c < 256) : ∃ decoded, jsonBlob token = .ok decoded := by
  by_cases quoted : token.kind = .string
  · obtain ⟨inner,units,val⟩ := lexeme.string quoted
    obtain ⟨decoded,unescapes⟩ := units_unescape inner units fun c inside => bytes c (by
      rw [val]
      exact List.mem_cons_of_mem _ (List.mem_append_left _ inside))
    refine ⟨decoded,blob_of_unescapes token decoded ?_⟩
    cases token with
    | mk kind chars =>
      change chars = _ at val
      rw [val,string_chars]
      exact unescapes
  · have bare := lexeme.bare scalar quoted
    have unquoted : token.chars = token.val.map UInt8.ofNat := by
      unfold Token.chars
      rw [if_neg]
      intro quote
      exact (bare 34 (List.mem_of_mem_head? quote)).2.2.2 rfl
    obtain ⟨v,leads,out,half,ends⟩ := bare_units token.val bare bytes
      ⟨token.val.map UInt8.ofNat ++ [0],0,none,0⟩ ⟨[],0,between_start _⟩
    refine ⟨out,blob_of_unescapes token out ?_⟩
    rw [unquoted]
    apply unescapes_of_leads _ out [] half v _ ends
    rw [List.length_map]
    exact leads

end ModNdb.JSON
