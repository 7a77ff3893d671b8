import ModNdb.JSON.Texts
import ModNdb.Query.Body

/-! Both readers of form data fill the same table: from pairs that are percent-encoded, and
from an object with the pairs as escaped strings. -/
namespace ModNdb.Query
open JSON (Escaped SpellsPairs objectText)

/-- How a byte may stand in a URL: for itself, or as two hex digits. -/
inductive PercentUnit : UInt8 → Text → Prop
  | plain (c : UInt8) (free : c ≠ code '%' ∧ c ≠ code '&' ∧ c ≠ code '=' ∧ c ≠ 0) : PercentUnit c [c]
  | escape (a b : UInt8) (i j : Nat) (high : hexDigit? a = some i) (low : hexDigit? b = some j) :
      PercentUnit (UInt8.ofNat (16 * i + j)) [code '%',a,b]

def PercentEncoded (s e : Text) : Prop :=
  ∃ units : List Text, List.Forall₂ PercentUnit s units ∧ e = units.flatten

/-- The pairs joined with `=` and `&`. -/
def joined (items : List (Text × Text)) : Text :=
  List.intercalate [code '&'] (items.map fun item => item.1 ++ code '=' :: item.2)

theorem decodeUrl_plain (c : UInt8) (rest : Text) (free : c ≠ code '%') :
    decodeUrl (c::rest) = c :: decodeUrl rest := by
  cases rest with
  | nil => rfl
  | cons a rest =>
    cases rest with
    | nil => rfl
    | cons b rest =>
      rw [decodeUrl]
      cases hexDigit? a with
      | none => rfl
      | some i =>
        cases hexDigit? b with
        | none => rfl
        | some j => exact if_neg free

theorem decodeUrl_escape (a b : UInt8) (i j : Nat) (high : hexDigit? a = some i)
    (low : hexDigit? b = some j) (rest : Text) :
    decodeUrl (code '%'::a::b::rest) = UInt8.ofNat (16 * i + j) :: decodeUrl rest := by
  rw [decodeUrl,high,low]
  exact if_pos rfl

theorem decodeUrl_units (s : Text) (units : List Text) (encoded : List.Forall₂ PercentUnit s units) :
    decodeUrl units.flatten = s := by
  induction encoded with
  | nil => rfl
  | cons first rest ih =>
    rw [List.flatten_cons]
    cases first with
    | plain c free =>
      rw [List.singleton_append,decodeUrl_plain _ _ free.1,ih]
    | escape a b i j high low =>
      rw [List.cons_append,List.cons_append,List.cons_append,List.nil_append,
        decodeUrl_escape a b i j high low,ih]

theorem unescapeUrl_encoded (s e : Text) (encoded : PercentEncoded s e) (nulFree : 0 ∉ s) :
    unescapeUrl e = s := by
  obtain ⟨units,each,rfl⟩ := encoded
  rw [unescapeUrl,decodeUrl_units s units each,cstring_self s nulFree]

/-- What has a meaning in a URL is not among the encoded bytes. -/
theorem encoded_free (s e : Text) (encoded : PercentEncoded s e) (c : UInt8)
    (special : c = code '&' ∨ c = code '=' ∨ c = 0) : c ∉ e := by
  obtain ⟨units,each,rfl⟩ := encoded
  intro inside
  obtain ⟨unit,member,part⟩ := List.mem_flatten.mp inside
  obtain ⟨byte,_,one⟩ := JSON.forall₂_mem_left each.flip unit member
  cases one with
  | plain c free =>
    rw [List.mem_singleton.mp part] at special
    rcases special with same | same | same
    · exact free.2.1 same
    · exact free.2.2.1 same
    · exact free.2.2.2 same
  | escape a b i j high low =>
    have other (d : UInt8) (n : Nat) (digit : hexDigit? d = some n) : c ≠ d := by
      rintro rfl
      rcases special with rfl | rfl | rfl <;> cases digit
    rcases List.mem_cons.mp part with rfl | part
    · revert special
      decide
    rcases List.mem_cons.mp part with same | part
    · exact other a i high same
    · exact other b j low (List.mem_singleton.mp part)

theorem getword_stop (word rest : Text) (stop : UInt8) (free : stop ∉ word)
    (next : rest.head? ≠ some stop) : getword (word ++ stop::rest) stop = (word,rest) := by
  have all : ∀ c ∈ word, decide (c ≠ stop) = true := by
    intro c inside
    exact decide_eq_true fun same => free (same ▸ inside)
  unfold getword
  rw [List.takeWhile_append_of_pos all,List.dropWhile_append_of_pos all,
    List.takeWhile_cons_of_neg (by simp),List.dropWhile_cons_of_neg (by simp),
    List.dropWhile_cons_of_pos (by simp),List.append_nil]
  cases rest with
  | nil => rfl
  | cons c rest =>
    rw [List.dropWhile_cons_of_neg]
    intro same
    exact next (congrArg some (of_decide_eq_true same))

theorem getword_last (word : Text) (stop : UInt8) (free : stop ∉ word) :
    getword word stop = (word,[]) := by
  have all : ∀ c ∈ word, decide (c ≠ stop) = true := by
    intro c inside
    exact decide_eq_true fun same => free (same ▸ inside)
  unfold getword
  rw [List.takeWhile_eq_self_iff.mpr all,List.dropWhile_eq_nil_iff.mpr all]
  rfl

def EncodesPairs (items encoded : List (Text × Text)) : Prop :=
  List.Forall₂ (fun item one => PercentEncoded item.1 one.1 ∧ PercentEncoded item.2 one.2) items encoded

theorem joined_cons (item : Text × Text) (items : List (Text × Text)) :
    joined (item::items) = item.1 ++ code '=' :: item.2 ++
      (items.flatMap fun one => code '&' :: (one.1 ++ code '=' :: one.2)) := by
  unfold joined
  rw [JSON.intercalate_tail,List.map_cons,List.flatMap_cons,List.flatMap_map]
  rfl

theorem pairs_round (item encoded : Text × Text) (rest : Text) (fuel : Nat)
    (encodes : PercentEncoded item.1 encoded.1 ∧ PercentEncoded item.2 encoded.2)
    (nulFree : 0 ∉ item.1 ∧ 0 ∉ item.2) (line : Text)
    (read : getword line (code '&') = (encoded.1 ++ code '=' :: encoded.2,rest)) (some : line ≠ []) :
    pairsLoop (fuel + 1) line = item :: pairsLoop fuel rest := by
  obtain ⟨name,value⟩ := encodes
  have free := encoded_free _ _ name (code '=') (.inr (.inl rfl))
  have next : encoded.2.head? ≠ Option.some (code '=') := fun first =>
    encoded_free _ _ value (code '=') (.inr (.inl rfl)) (List.mem_of_mem_head? first)
  have split := getword_stop encoded.1 encoded.2 (code '=') free next
  have decoded := unescapeUrl_encoded item.1 encoded.1 name nulFree.1
  have decoded' := unescapeUrl_encoded item.2 encoded.2 value nulFree.2
  simp only [pairsLoop,if_neg some,read,split,decoded,decoded']

theorem pair_free (item encoded : Text × Text)
    (encodes : PercentEncoded item.1 encoded.1 ∧ PercentEncoded item.2 encoded.2) (c : UInt8)
    (stop : c = code '&' ∨ c = 0) : c ∉ encoded.1 ++ code '=' :: encoded.2 := by
  have special : c = code '&' ∨ c = code '=' ∨ c = 0 := stop.imp_right .inr
  intro inside
  rcases List.mem_append.mp inside with inside | inside
  · exact encoded_free _ _ encodes.1 c special inside
  rcases List.mem_cons.mp inside with rfl | inside
  · revert stop
    decide
  · exact encoded_free _ _ encodes.2 c special inside

theorem pairsLoop_joined (items encoded : List (Text × Text)) (encodes : EncodesPairs items encoded)
    (nulFree : ∀ item ∈ items, 0 ∉ item.1 ∧ 0 ∉ item.2) (fuel : Nat)
    (enough : encoded.length ≤ fuel) : pairsLoop fuel (joined encoded) = items := by
  induction encodes generalizing fuel with
  | nil => cases fuel <;> rfl
  | @cons item one items encoded first rest ih =>
    obtain ⟨fuel,rfl⟩ := Nat.exists_eq_succ_of_ne_zero (Nat.ne_of_gt (Nat.lt_of_lt_of_le
      (Nat.succ_pos encoded.length) enough))
    obtain ⟨free,others⟩ := List.forall_mem_cons.mp nulFree
    have unstopped := pair_free item one first (code '&') (.inl rfl)
    have some : joined (one::encoded) ≠ [] := by
      rw [joined_cons]
      simp
    have shorter : encoded.length ≤ fuel := Nat.le_of_succ_le_succ enough
    rw [Nat.succ_eq_add_one]
    cases encoded with
    | nil =>
      have whole : joined [one] = one.1 ++ code '=' :: one.2 := by simp [joined_cons]
      rw [pairs_round item one [] fuel first free _ (by rw [whole,getword_last _ _ unstopped]) some]
      exact congrArg (List.cons item) (ih others fuel shorter)
    | cons next encoded =>
      rw [pairs_round item one (joined (next::encoded)) fuel first free _ ?_ some]
      · exact congrArg (List.cons item) (ih others fuel shorter)
      rw [joined_cons,List.flatMap_cons,List.cons_append,← joined_cons next encoded]
      apply getword_stop _ _ _ unstopped
      intro begins
      cases rest with
      | cons second _ =>
        rw [joined_cons] at begins
        have among := List.mem_of_mem_head? (l := next.1 ++ code '=' :: next.2) (a := code '&') (by
          cases name : next.1 <;> rw [name] at begins <;> exact begins)
        exact pair_free _ next second (code '&') (.inl rfl) among

theorem joined_nulFree (items encoded : List (Text × Text)) (encodes : EncodesPairs items encoded) :
    0 ∉ joined encoded := by
  cases encodes with
  | nil => exact List.not_mem_nil
  | @cons item one items encoded first rest =>
    rw [joined_cons]
    intro inside
    rcases List.mem_append.mp inside with inside | inside
    · exact pair_free item one first 0 (.inr rfl) inside
    · obtain ⟨next,member,part⟩ := List.mem_flatMap.mp inside
      obtain ⟨item',_,encodes'⟩ := JSON.forall₂_mem_left rest.flip next member
      rcases List.mem_cons.mp part with same | part
      · revert same
        decide
      · exact pair_free item' next encodes' 0 (.inr rfl) part

theorem joined_length (encoded : List (Text × Text)) : encoded.length ≤ (joined encoded).length := by
  have pieces (l : List (Text × Text)) : l.length ≤
      (l.flatMap fun one => code '&' :: (one.1 ++ code '=' :: one.2)).length := by
    induction l with
    | nil => exact Nat.le_refl 0
    | cons one l ih =>
      rw [List.flatMap_cons,List.length_append,List.length_cons,List.length_cons]
      omega
  cases encoded with
  | nil => exact Nat.zero_le _
  | cons one encoded =>
    have more := pieces encoded
    rw [joined_cons,List.length_append,List.length_append,List.length_cons,List.length_cons]
    omega

theorem cstring_terminated (s behind : Text) (nulFree : 0 ∉ s) : cstring (s ++ 0::behind) = s := by
  have all : ∀ c ∈ s, decide (c ≠ 0) = true := by
    intro c inside
    exact decide_eq_true fun same => nulFree (same ▸ inside)
  unfold cstring
  rw [List.takeWhile_append_of_pos all,List.takeWhile_cons_of_neg (by simp),List.append_nil]

/-- `read_urlencoded` sets the pairs. -/
theorem readUrlencoded_joined (items encoded : List (Text × Text)) (encodes : EncodesPairs items encoded)
    (nulFree : ∀ item ∈ items, 0 ∉ item.1 ∧ 0 ∉ item.2) :
    readUrlencoded (some (joined encoded ++ [0])) = .ok (0,setItems items) := by
  have read := cstring_terminated _ [] (joined_nulFree items encoded encodes)
  have looped := pairsLoop_joined items encoded encodes nulFree _ (joined_length encoded)
  simp only [readUrlencoded,pairs,read,looped]

/-- `read_jsonrequest` sets the pairs. -/
theorem readJsonrequest_object (items spelled : List (Text × Text)) (spells : SpellsPairs items spelled)
    (nulFree : ∀ item ∈ items, 0 ∉ item.1) :
    readJsonrequest (fun _ => true) (some (objectText spelled ++ [0])) (objectText spelled).length =
      .ok (0,setItems items) := by
  obtain ⟨r,ran,form⟩ := JSON.object_sets items spelled spells nulFree
  obtain ⟨t,parsed⟩ := JSON.parse_object (JSON.stringMembers spelled)
  have read := (JSON.object_lexes spelled spells.units).tokens
  have begun : JSON.scannerInit (((some (objectText spelled ++ [0])).getD []).take
      (objectText spelled).length) = some ((objectText spelled).map UInt8.toNat) := by
    rw [Option.getD_some,List.take_left]
    exact JSON.object_begins spelled
  have unlimited : (JSON.scanned (JSON.tokens ((objectText spelled).map UInt8.toNat))).all
      (fun _ => true) = true := List.all_eq_true.mpr fun _ _ => rfl
  rw [readJsonrequest_runs _ _ _ _ begun unlimited r (by rw [read,parsed]; exact ran),read,parsed,form]
  rfl

/-- Both readers leave a table that answers with the last pair of a name. -/
theorem readers_agree (items encoded spelled : List (Text × Text))
    (nulFree : ∀ item ∈ items, 0 ∉ item.1 ∧ 0 ∉ item.2) (encodes : EncodesPairs items encoded)
    (spells : SpellsPairs items spelled) :
    ∃ form form', readUrlencoded (some (joined encoded ++ [0])) = .ok (0,form) ∧
      readJsonrequest (fun _ => true) (some (objectText spelled ++ [0]))
        (objectText spelled).length = .ok (0,form') ∧
      ∀ name, form.getItem name = lastNamed items name ∧ form'.getItem name = lastNamed items name :=
  ⟨_,_,readUrlencoded_joined items encoded encodes nulFree,
    readJsonrequest_object items spelled spells fun item inside => (nulFree item inside).1,
    fun name => ⟨getItem_setItems items name,getItem_setItems items name⟩⟩

/-- Two pairs of one name, and the last one is found by both readers. -/
theorem readers_agree_twice :
    ∃ form form', readUrlencoded (some (joined [(text "a",text "%3D"),(text "a",text "b")] ++ [0])) =
        .ok (0,form) ∧
      readJsonrequest (fun _ => true)
        (some (objectText [(text "a",text "="),(text "a",text "b")] ++ [0]))
        (objectText [(text "a",text "="),(text "a",text "b")]).length = .ok (0,form') ∧
      ∀ name, form.getItem name = lastNamed [(text "a",text "="),(text "a",text "b")] name ∧
        form'.getItem name = lastNamed [(text "a",text "="),(text "a",text "b")] name := by
  have letter (c : UInt8) (plain : c ≠ 0 ∧ c ≠ code '\\') (char : JSON.isChar c.toNat = true) :
      Escaped [c] [c] :=
    ⟨[[c]],[[c]],.cons (.plain c plain.1 plain.2) .nil,rfl,rfl,[[c.toNat]],
      fun unit inside => by rw [List.mem_singleton.mp inside]; exact .plain _ char,rfl⟩
  have name : Escaped (text "a") (text "a") := letter 97 (by decide) (by decide)
  have key : PercentEncoded (text "a") (text "a") := ⟨[text "a"],.cons (.plain 97 (by decide)) .nil,rfl⟩
  exact readers_agree [(text "a",text "="),(text "a",text "b")]
    [(text "a",text "%3D"),(text "a",text "b")] [(text "a",text "="),(text "a",text "b")] (by decide)
    (.cons ⟨key,⟨[text "%3D"],.cons (.escape 51 68 3 13 rfl rfl) .nil,rfl⟩⟩
      (.cons ⟨key,⟨[text "b"],.cons (.plain 98 (by decide)) .nil,rfl⟩⟩ .nil))
    (.cons ⟨name,letter 61 (by decide) (by decide)⟩
      (.cons ⟨name,letter 98 (by decide) (by decide)⟩ .nil))

end ModNdb.Query
