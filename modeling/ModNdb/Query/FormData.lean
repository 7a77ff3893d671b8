import ModNdb.JSON.Completion
import ModNdb.Query.Body

/-! When `get_form_data` answers a request with a body, and what its reader is given. -/
namespace ModNdb.Query

/-- The bytes that `ap_get_client_block` delivers, up to the first call without any. -/
def ClientBlock.delivered (body : ClientBlock) : Text := (body.blocks.takeWhile (· ≠ [])).flatten

/-- The first `remaining` bytes of the body. -/
def ClientBlock.content (body : ClientBlock) : Text := body.delivered.take body.remaining

/-- The position in the buffer plus the length of some block is no `int`. -/
def Overflows (length : Nat) (blocks : List Text) (read : Nat) : Prop :=
  ∃ before block after, blocks = before ++ block::after ∧ (∀ one ∈ before, one ≠ []) ∧ block ≠ [] ∧
    2^31 ≤ min length (read + before.flatten.length) + block.length

section
variable (length : Nat) (blocks : List Text) (block read : Text)

theorem Overflows.later (some : block ≠ [])
    (later : Overflows length blocks (read.length + block.length)) :
    Overflows length (block::blocks) read.length := by
  obtain ⟨before,one,after,rfl,filled,full,above⟩ := later
  refine ⟨block::before,one,after,rfl,List.forall_mem_cons.mpr ⟨some,filled⟩,full,?_⟩
  rwa [List.flatten_cons,List.length_append,← Nat.add_assoc]

theorem Overflows.first_or_later (overflows : Overflows length (block::blocks) read.length) :
    2^31 ≤ min length read.length + block.length ∨
      Overflows length blocks (read.length + block.length) := by
  obtain ⟨before,one,after,split,filled,full,above⟩ := overflows
  cases before with
  | nil =>
    obtain ⟨rfl,rfl⟩ := List.cons.inj split
    exact .inl above
  | cons first before =>
    obtain ⟨rfl,rfl⟩ := List.cons.inj split
    refine .inr ⟨before,one,after,rfl,(List.forall_mem_cons.mp filled).2,full,?_⟩
    rwa [List.flatten_cons,List.length_append,← Nat.add_assoc] at above

end

/-- The loop clamps what it reads to the length, unless the position overflows. -/
theorem readBlocks_cases (length : Nat) (blocks : List Text) (read : Text) :
    ¬Overflows length blocks read.length ∧ readBlocks length blocks (read.take length) =
      .ok ((read ++ (blocks.takeWhile (· ≠ [])).flatten).take length) ∨
    Overflows length blocks read.length ∧
      readBlocks length blocks (read.take length) = .error .overflow := by
  induction blocks generalizing read with
  | nil =>
    left
    refine ⟨?_,by rw [List.takeWhile_nil,List.flatten_nil,List.append_nil]; rfl⟩
    rintro ⟨before,block,after,split,_⟩
    cases before <;> cases split
  | cons block blocks ih =>
    rw [readBlocks]
    by_cases empty : block = []
    · left
      rw [if_pos empty]
      refine ⟨?_,by simp [empty]⟩
      rintro ⟨before,one,after,split,filled,full,_⟩
      cases before with
      | nil => exact full ((List.cons.inj split).1.symm.trans empty)
      | cons first before =>
        exact filled first List.mem_cons_self ((List.cons.inj split).1.symm.trans empty)
    · rw [if_neg empty,List.length_take]
      by_cases above : 2^31 ≤ min length read.length + block.length
      · right
        rw [if_pos above]
        refine ⟨⟨[],block,blocks,rfl,by simp,empty,?_⟩,rfl⟩
        rwa [List.flatten_nil,List.length_nil,Nat.add_zero]
      · rw [if_neg above]
        have clamped : read.take length ++ block.take (if length < min length read.length + block.length
            then length - min length read.length else block.length) = (read ++ block).take length := by
          rw [List.take_append]
          congr 1
          split_ifs with more
          · rcases Nat.le_total length read.length with full | room
            · rw [Nat.min_eq_left full,Nat.sub_self,Nat.sub_eq_zero_of_le full]
            · rw [Nat.min_eq_right room]
          · rw [List.take_of_length_le (Nat.le_refl _),List.take_of_length_le (by omega)]
        have delivered : (read ++ block) ++ (blocks.takeWhile (· ≠ [])).flatten =
            read ++ ((block::blocks).takeWhile (· ≠ [])).flatten := by
          rw [List.takeWhile_cons_of_pos (by simpa using empty),List.flatten_cons,List.append_assoc]
        have next := ih (read ++ block)
        rw [List.length_append,delivered] at next
        simp only [clamped]
        rcases next with ⟨fits,ran⟩ | ⟨overflows,ran⟩
        · refine .inl ⟨fun overflows => ?_,ran⟩
          rcases overflows.first_or_later with here | later
          · exact above here
          · exact fits later
        · exact .inr ⟨overflows.later length blocks block read empty,ran⟩

/-- The buffer: the first bytes of the body, and the NULs of `ap_pcalloc` behind them. -/
def ClientBlock.buffer (body : ClientBlock) : Text :=
  body.content ++ List.replicate (body.remaining + 1 - body.content.length) 0

theorem utilRead_refused (body : ClientBlock) (refused : body.setup ≠ 0) :
    utilRead body = .ok (body.setup,none,0) := if_pos refused

theorem utilRead_nothing (body : ClientBlock) (accepted : body.setup = 0) (bare : body.should = false) :
    utilRead body = .ok (0,none,0) := by
  unfold utilRead
  rw [if_neg (not_not_intro accepted),bare]
  rfl

theorem utilRead_body (body : ClientBlock) (accepted : body.setup = 0) (filled : body.should = true) :
    ¬Overflows body.remaining body.blocks 0 ∧
        utilRead body = .ok (0,some body.buffer,body.content.length) ∨
      Overflows body.remaining body.blocks 0 ∧ utilRead body = .error .overflow := by
  have read := readBlocks_cases body.remaining body.blocks []
  rw [List.take_nil] at read
  unfold utilRead
  rw [if_neg (not_not_intro accepted),if_pos filled]
  rcases read with ⟨fits,ran⟩ | ⟨overflows,ran⟩
  · left
    rw [ran]
    exact ⟨fits,rfl⟩
  · right
    rw [ran]
    exact ⟨overflows,rfl⟩

/-- The JSON reader answers: the byte order mark is whole, if there is one, every token the
parser asks for fits in the scanner, every text it takes decodes, and every `set_item` has a
value. -/
def JsonAnswered (bytes : Text) : Prop :=
  ∃ chars, JSON.scannerInit bytes = some chars ∧
    (JSON.scanned (JSON.tokens chars)).all JSON.Token.fits = true ∧
    JSON.Decodes (JSON.parse (JSON.tokens chars)).2.actions ∧
    JSON.Supplied false false (JSON.parse (JSON.tokens chars)).2.actions

theorem readJsonrequest_iff (databuffer : Option Text) (length : Nat) :
    (∃ result, readJsonrequest JSON.Token.fits databuffer length = .ok result) ↔
      JsonAnswered ((databuffer.getD []).take length) := by
  unfold JsonAnswered
  cases begun : JSON.scannerInit ((databuffer.getD []).take length) with
  | none =>
    constructor
    · rintro ⟨result,ran⟩
      simp only [readJsonrequest,begun] at ran
      cases ran
    · rintro ⟨chars,none,_⟩
      cases none
  | some chars =>
    cases short : (JSON.scanned (JSON.tokens chars)).all JSON.Token.fits with
    | false =>
      rw [readJsonrequest_long _ _ _ chars begun short]
      constructor
      · rintro ⟨_,none⟩
        cases none
      · rintro ⟨chars',same,all,_⟩
        cases same
        rw [short] at all
        cases all
    | true =>
      have runs := JSON.runs_iff (JSON.parse (JSON.tokens chars)).2.actions
      constructor
      · rintro ⟨result,answered⟩
        refine ⟨chars,rfl,short,runs.mp ?_⟩
        rcases ran : JSON.runActions (JSON.parse (JSON.tokens chars)).2.actions .init with ⟨outcome,r⟩
        cases outcome with
        | ok => exact ⟨r,rfl⟩
        | error crash =>
          rw [readJsonrequest_crashes _ _ _ chars begun short r crash ran] at answered
          cases answered
      · rintro ⟨chars',same,_,runnable⟩
        cases same
        obtain ⟨r,ran⟩ := runs.mpr runnable
        exact ⟨_,readJsonrequest_runs _ _ _ chars begun short r ran⟩

def IsMultipart (contentType : Option Text) : Prop :=
  ∃ value, contentType = some value ∧ value.take 19 = text "multipart/form-data"

theorem bodyReader_multipart (contentType : Option Text) (multipart : IsMultipart contentType) :
    bodyReader contentType = .error .assertion := by
  obtain ⟨value,rfl,front⟩ := multipart
  have notUrlencoded : value ≠ text "application/x-www-form-urlencoded" := by
    rintro rfl
    revert front
    decide
  have notJson : value.map toLower ≠ text "application/jsonrequest" := by
    intro same
    have lower := congrArg (List.take 19) same
    rw [← List.map_take,front] at lower
    revert lower
    decide
  rw [bodyReader,if_neg notUrlencoded,if_neg notJson,if_pos front]

theorem bodyReader_other (contentType : Option Text) (other : ¬IsMultipart contentType) :
    ∃ reader, bodyReader contentType = .ok reader := by
  cases contentType with
  | none => exact ⟨_,rfl⟩
  | some value =>
    have front : value.take 19 ≠ text "multipart/form-data" := fun front => other ⟨value,rfl,front⟩
    rw [bodyReader,if_neg front]
    split_ifs <;> exact ⟨_,rfl⟩

structure Answered (r : RequestRec) : Prop where
  type : ¬IsMultipart r.contentType
  fits : ∀ reader, bodyReader r.contentType = .ok (some reader) → r.body.setup = 0 →
    r.body.should = true → ¬Overflows r.body.remaining r.body.blocks 0
  body : bodyReader r.contentType = .ok (some .urlencoded) → r.body.setup = 0 → r.body.should = true
  json : bodyReader r.contentType = .ok (some .jsonrequest) → r.body.setup = 0 →
    r.body.should = true → JsonAnswered r.body.content

/-- `get_form_data` returns a status, and a buffer that its reader was given holds the first
`remaining` bytes of the body and a NUL behind them. -/
def Returns (r : RequestRec) : Prop :=
  ∃ read, getFormData r = .ok read ∧ ∀ databuffer length,
    read.passed = some (some databuffer,length) →
      databuffer = r.body.content ++ 0 :: List.replicate (r.body.remaining - r.body.content.length) 0 ∧
      length = r.body.content.length

section
variable (r : RequestRec) (post : r.methodNumber = .post)
include post

theorem getFormData_crashes (crash : Crash) (type : bodyReader r.contentType = .error crash) :
    getFormData r = .error crash := by
  unfold getFormData
  rw [if_neg (not_not_intro post),type]
  rfl

theorem getFormData_declined (type : bodyReader r.contentType = .ok none) :
    getFormData r = .ok ⟨-1,.empty,none⟩ := by
  unfold getFormData
  rw [if_neg (not_not_intro post),type]
  rfl

variable (reader : BodyReader) (type : bodyReader r.contentType = .ok (some reader))
include type

theorem getFormData_unread (crash : Crash) (read : utilRead r.body = .error crash) :
    getFormData r = .error crash := by
  unfold getFormData
  rw [if_neg (not_not_intro post),type]
  change (utilRead r.body >>= fun _ => _) = _
  rw [read]
  rfl

theorem getFormData_refused (refused : r.body.setup ≠ 0) :
    getFormData r = .ok ⟨r.body.setup,.empty,none⟩ := by
  unfold getFormData
  rw [if_neg (not_not_intro post),type]
  change (utilRead r.body >>= fun _ => _) = _
  rw [utilRead_refused r.body refused]
  exact if_pos refused

theorem getFormData_read (databuffer : Option Text) (length : Nat)
    (read : utilRead r.body = .ok (0,databuffer,length)) :
    getFormData r = (readBody reader databuffer length).map fun result =>
      ⟨result.1,result.2,some (databuffer,length)⟩ := by
  simp only [getFormData,post,type,read,bind,Except.bind,ne_eq,not_true_eq_false,if_false]
  cases readBody reader databuffer length <;> rfl

end

theorem buffer_split (body : ClientBlock) : body.buffer =
    body.content ++ 0 :: List.replicate (body.remaining - body.content.length) 0 := by
  have short : body.content.length ≤ body.remaining := List.length_take_le _ _
  unfold ClientBlock.buffer
  rw [Nat.succ_sub short,List.replicate_succ]

theorem buffer_content (body : ClientBlock) : body.buffer.take body.content.length = body.content :=
  List.take_left

theorem jsonAnswered_nothing : JsonAnswered [] :=
  ⟨[],rfl,by decide,fun _ inside => absurd inside List.not_mem_nil,trivial⟩

/-- The reader of a body that was read, or is not there. -/
theorem readBody_iff (reader : BodyReader) (databuffer : Option Text) (length : Nat) :
    (∃ result, readBody reader databuffer length = .ok result) ↔
      (reader = .urlencoded → databuffer ≠ none) ∧
        (reader = .jsonrequest → JsonAnswered ((databuffer.getD []).take length)) := by
  cases reader with
  | urlencoded =>
    cases databuffer with
    | none =>
      constructor
      · rintro ⟨_,none⟩
        cases none
      · exact fun answered => absurd rfl (answered.1 rfl)
    | some data => exact ⟨fun _ => ⟨fun _ none => (by cases none),fun json => (by cases json)⟩,fun _ => ⟨_,rfl⟩⟩
  | jsonrequest =>
    constructor
    · exact fun read => ⟨fun url => (by cases url),fun _ => (readJsonrequest_iff databuffer length).mp read⟩
    · exact fun answered => (readJsonrequest_iff databuffer length).mpr (answered.2 rfl)

/-- A request is answered if its reader returns, with what `util_read` left. -/
theorem returns_read (r : RequestRec) (post : r.methodNumber = .post) (reader : BodyReader)
    (type : bodyReader r.contentType = .ok (some reader)) (databuffer : Option Text) (length : Nat)
    (read : utilRead r.body = .ok (0,databuffer,length))
    (holds : ∀ data, databuffer = some data → data = r.body.buffer ∧ length = r.body.content.length) :
    Returns r ↔ ∃ result, readBody reader databuffer length = .ok result := by
  unfold Returns
  rw [getFormData_read r post reader type databuffer length read]
  constructor
  · rintro ⟨form,ran,_⟩
    cases outcome : readBody reader databuffer length with
    | error crash =>
      rw [outcome] at ran
      cases ran
    | ok result => exact ⟨result,rfl⟩
  · rintro ⟨result,ran⟩
    rw [ran]
    refine ⟨_,rfl,fun data length' passed => ?_⟩
    cases passed
    rw [← buffer_split]
    exact holds data rfl

/-- The conditions, of a request whose content type has a reader and whose body is accepted. -/
theorem answered_iff (r : RequestRec) (reader : BodyReader) (multipart : ¬IsMultipart r.contentType)
    (type : bodyReader r.contentType = .ok (some reader)) (accepted : r.body.setup = 0) :
    Answered r ↔ (reader = .urlencoded → r.body.should = true) ∧ (r.body.should = true →
      ¬Overflows r.body.remaining r.body.blocks 0 ∧
        (reader = .jsonrequest → JsonAnswered r.body.content)) := by
  constructor
  · intro answered
    refine ⟨?_,fun filled => ⟨answered.fits reader type accepted filled,?_⟩⟩
    · rintro rfl
      exact answered.body type accepted
    · rintro rfl
      exact answered.json type accepted filled
  · rintro ⟨body,rest⟩
    have same (other : BodyReader) (type' : bodyReader r.contentType = .ok (some other)) :
        reader = other := Option.some.inj (Except.ok.inj (type.symm.trans type'))
    exact ⟨multipart,fun _ _ _ filled => (rest filled).1,fun type' _ => body (same _ type'),
      fun type' _ filled => (rest filled).2 (same _ type')⟩

/-- `get_form_data` answers a POST exactly under these conditions. -/
theorem get_form_data_iff (r : RequestRec) (post : r.methodNumber = .post) :
    Returns r ↔ Answered r := by
  by_cases multipart : IsMultipart r.contentType
  · constructor
    · rintro ⟨_,ran,_⟩
      rw [getFormData_crashes r post .assertion (bodyReader_multipart _ multipart)] at ran
      cases ran
    · exact fun answered => absurd multipart answered.type
  obtain ⟨chosen,type⟩ := bodyReader_other _ multipart
  cases chosen with
  | none =>
    have unread (reader : BodyReader) : bodyReader r.contentType ≠ .ok (some reader) := by
      rw [type]
      exact fun same => by cases same
    exact ⟨fun _ => ⟨multipart,fun _ some => absurd some (unread _),fun some => absurd some (unread _),
      fun some => absurd some (unread _)⟩,
      fun _ => ⟨_,getFormData_declined r post type,fun _ _ none => (by cases none)⟩⟩
  | some reader =>
    by_cases refused : r.body.setup ≠ 0
    · exact ⟨fun _ => ⟨multipart,fun _ _ ok => absurd ok refused,fun _ ok => absurd ok refused,
        fun _ ok => absurd ok refused⟩,
        fun _ => ⟨_,getFormData_refused r post reader type refused,fun _ _ none => (by cases none)⟩⟩
    have accepted := not_not.mp refused
    rw [answered_iff r reader multipart type accepted]
    cases filled : r.body.should with
    | false =>
      have read := utilRead_nothing r.body accepted filled
      rw [returns_read r post reader type none 0 read (fun _ none => by cases none),readBody_iff]
      constructor
      · exact fun answered => ⟨fun url => absurd rfl (answered.1 url),fun no => by cases no⟩
      · exact fun answered => ⟨fun url => (by cases answered.1 url),fun _ => jsonAnswered_nothing⟩
    | true =>
      rcases utilRead_body r.body accepted filled with ⟨fits,read⟩ | ⟨overflows,read⟩
      · rw [returns_read r post reader type _ _ read (fun _ same => by cases same; exact ⟨rfl,rfl⟩),
          readBody_iff,Option.getD_some,buffer_content]
        exact ⟨fun answered => ⟨fun _ => rfl,fun _ => ⟨fits,answered.2⟩⟩,
          fun answered => ⟨fun _ none => (by cases none),(answered.2 rfl).2⟩⟩
      · constructor
        · rintro ⟨_,ran,_⟩
          rw [getFormData_unread r post reader type .overflow read] at ran
          cases ran
        · exact fun answered => absurd overflows (answered.2 rfl).1

/-- A POST without a body and without a content type, as a client may send it. -/
def emptyPost : RequestRec where
  main := false
  methodNumber := .post
  args := none
  pathInfo := []
  beforePathInfo := 0
  contentType := none
  requestMethod := none
  requestData := none
  sendResult := false
  body := ⟨0,false,0,[]⟩

def jsonPost : RequestRec :=
  {emptyPost with
    contentType := some (text "application/jsonrequest")
    body := ⟨0,true,7,[text "\x7b\"a\":",text "1\x7d"]⟩}

theorem get_form_data_json : Answered jsonPost ∧ Returns jsonPost := by
  have answered : Answered jsonPost := {
    type := by
      rintro ⟨_,⟨⟩,front⟩
      revert front
      decide
    fits := by
      rintro _ _ _ _ ⟨before,block,after,whole,_,_,big⟩
      have inside : block ∈ jsonPost.body.blocks :=
        whole ▸ List.mem_append_right before List.mem_cons_self
      have short : ∀ block ∈ jsonPost.body.blocks, block.length ≤ 5 := by decide
      have bound := short block inside
      have least := Nat.min_le_left jsonPost.body.remaining (0 + before.flatten.length)
      have remaining : jsonPost.body.remaining = 7 := rfl
      omega
    body := by
      intro type
      revert type
      decide
    json := fun _ _ _ => (readJsonrequest_iff (some jsonPost.body.content) 7).mp ⟨_,rfl⟩ }
  exact ⟨answered,(get_form_data_iff jsonPost rfl).mpr answered⟩

/-- Without a body there is no buffer, and `read_urlencoded` reads through a null pointer. -/
theorem empty_post_crashes : emptyPost.methodNumber = .post ∧
    getFormData emptyPost = .error .nullPointer ∧ ¬Returns emptyPost := by
  have crashes : getFormData emptyPost = .error .nullPointer := rfl
  refine ⟨rfl,crashes,?_⟩
  rintro ⟨_,ran,_⟩
  rw [crashes] at ran
  cases ran

end ModNdb.Query
