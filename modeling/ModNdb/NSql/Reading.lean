import ModNdb.NSql.Grammar

/-! What it means that a production of the parser reads the phrases of a grammar and acts on what they
say, with a rule for each way to make a production out of others. -/
namespace ModNdb.NSql
open Config (Setup)
open Grammar (First)
open Phrase (empty many never)
open Prog (Steps)

def Tame (ahead : List Token) : Prop := laKind ahead ≠ .wild

/-- No error so far, so that the next one is counted. -/
structure Parsing.Clean (p : Parsing) : Prop where
  none : p.count = 0
  counted : 2 ≤ p.errDist
  tame : Tame p.ahead

def Erring (p q : Parsing) : Prop := p.count ≠ 0 → q.count ≠ 0

instance : IsPreorder Parsing Erring where
  refl _ := id
  trans _ _ _ first second := second ∘ first

theorem report_erring (p : Parsing) : Erring p p.report := by
  intro errors
  unfold Parsing.report
  dsimp only
  split <;> omega

theorem report_count (p : Parsing) (clean : p.Clean) : p.report.count ≠ 0 := by
  unfold Parsing.report
  rw [if_pos clean.counted]
  exact Nat.succ_ne_zero _

theorem getToken_erring : Steps Erring getToken := by
  intro p
  refine ⟨?_,fun _ _ => trivial⟩
  unfold getToken
  dsimp only
  split <;> exact id

theorem synErr_erring : Steps Erring synErr := Steps.modify report_erring

theorem branch_run (kind : Kind) (yes no : Production) (p : Parsing) :
    branch kind yes no p = if laKind p.ahead = kind then yes p else no p := by
  unfold branch
  rw [Prog.bind_ok _ (Prog.get_run p)]
  split <;> rfl

theorem branch_erring {kind : Kind} {yes no : Production} (first : Steps Erring yes)
    (second : Steps Erring no) : Steps Erring (branch kind yes no) :=
  Steps.get fun _ => Steps.ite first second

theorem expect_erring (kind : Kind) : Steps Erring (expect kind) :=
  branch_erring getToken_erring synErr_erring

theorem act_erring (action : Token → Vars → Setup Unit) : Steps Erring (act action) := by
  intro p
  refine ⟨?_,fun _ _ => trivial⟩
  unfold act
  rcases action p.t p.vars p.dir with ⟨(⟨message⟩ | ⟨why⟩) | u,dir⟩
  · exact report_erring {p with dir}
  · exact id
  · exact id

theorem furtherItems_erring {separator : Kind} {item : Production} (each : Steps Erring item)
    (fuel : Nat) : Steps Erring (furtherItems separator item fuel) := by
  induction fuel with
  | zero => exact Steps.fail _
  | succ fuel ih =>
    have goes : Steps Erring
        (getToken >>= fun _ => item >>= fun _ => furtherItems separator item fuel) :=
      getToken_erring.bind fun _ => each.bind fun _ => ih
    exact Steps.get fun _ => Steps.ite goes (Steps.pure _)

/-- From a token and variables of a kind, a production without an error reads a phrase and runs what
it says, and every phrase in front of what may follow is read so. -/
structure Refines {α : Type} (before : Token → Vars → Prop) (x : Production) (phrase : Phrase Token α)
    (run : α → Setup Unit) (after : α → Token → Vars → Prop) (behind : List Token → Prop) : Prop where
  erring : Steps Erring x
  tame : phrase.Begins behind Tame
  sound : ∀ p q : Parsing, p.Clean → before p.t p.vars → x p = (.ok (),q) → q.count = 0 →
    q.Clean ∧ ∃ a used, p.ahead = used ++ q.ahead ∧ phrase a used ∧ run a p.dir = (.ok (),q.dir) ∧
      after a q.t q.vars
  complete : ∀ (p : Parsing) a used ahead dir, p.Clean → before p.t p.vars → p.ahead = used ++ ahead →
    phrase a used → behind ahead → run a p.dir = (.ok (),dir) →
    ∃ q : Parsing, x p = (.ok (),q) ∧ q.Clean ∧ q.ahead = ahead ∧ q.dir = dir ∧ after a q.t q.vars

namespace Refines
variable {α β : Type} {x y : Production} {phrase other : Phrase Token α} {second : Phrase Token β}
  {before middle : Token → Vars → Prop} {run : α → Setup Unit} {after : α → Token → Vars → Prop}
  {behind between : List Token → Prop}

theorem mono {before' : Token → Vars → Prop} {after' : α → Token → Vars → Prop}
    {behind' : List Token → Prop} (refines : Refines before x phrase run after behind)
    (given : ∀ t vars, before' t vars → before t vars)
    (left : ∀ a t vars, after a t vars → after' a t vars)
    (followed : ∀ ahead, behind' ahead → behind ahead) :
    Refines before' x phrase run after' behind' where
  erring := refines.erring
  tame := refines.tame.mono followed fun _ => id
  sound p q clean start ran none := by
    obtain ⟨clean',a,used,read,spelled,acted,done⟩ := refines.sound p q clean (given _ _ start) ran none
    exact ⟨clean',a,used,read,spelled,acted,left a _ _ done⟩
  complete p a used ahead dir clean start read spelled follows acted := by
    obtain ⟨q,ran,clean',left',dir',done⟩ :=
      refines.complete p a used ahead dir clean (given _ _ start) read spelled (followed _ follows) acted
    exact ⟨q,ran,clean',left',dir',left a _ _ done⟩

theorem followed {behind' : List Token → Prop} (refines : Refines before x phrase run after behind)
    (tame : ∀ ahead, behind' ahead → behind ahead) : Refines before x phrase run after behind' :=
  refines.mono (fun _ _ => id) (fun _ _ _ => id) tame

theorem leaving {after' : α → Token → Vars → Prop} (refines : Refines before x phrase run after behind)
    (left : ∀ a t vars, after a t vars → after' a t vars) :
    Refines before x phrase run after' behind := refines.mono (fun _ _ => id) left fun _ => id

theorem spelled {run' : α → Setup Unit} {after' : α → Token → Vars → Prop}
    (refines : Refines before x phrase run after behind) (same : ∀ a used, phrase a used → run' a = run a)
    (left : ∀ a used t vars, phrase a used → after a t vars → after' a t vars) :
    Refines before x phrase run' after' behind where
  erring := refines.erring
  tame := refines.tame
  sound p q clean start ran none := by
    obtain ⟨clean',a,used,read,spelled,acted,done⟩ := refines.sound p q clean start ran none
    exact ⟨clean',a,used,read,spelled,(same a used spelled).symm ▸ acted,left a used _ _ spelled done⟩
  complete p a used ahead dir clean start read spelled follows acted := by
    obtain ⟨q,ran,clean',left',dir',done⟩ := refines.complete p a used ahead dir clean start read spelled
      follows (same a used spelled ▸ acted)
    exact ⟨q,ran,clean',left',dir',left a used _ _ spelled done⟩

theorem map {run' : β → Setup Unit} {after' : β → Token → Vars → Prop}
    (refines : Refines before x phrase run after behind) (f : α → β) (same : ∀ a, run' (f a) = run a)
    (left : ∀ a t vars, after a t vars → after' (f a) t vars) :
    Refines before x (phrase.map f) run' after' behind where
  erring := refines.erring
  tame := refines.tame.map
  sound p q clean start ran none := by
    obtain ⟨clean',a,used,read,spelled,acted,done⟩ := refines.sound p q clean start ran none
    exact ⟨clean',f a,used,read,⟨a,rfl,spelled⟩,(same a).symm ▸ acted,left a _ _ done⟩
  complete p b used ahead dir clean start read spelled follows acted := by
    obtain ⟨a,rfl,spelled⟩ := spelled
    obtain ⟨q,ran,clean',left',dir',done⟩ :=
      refines.complete p a used ahead dir clean start read spelled follows (same a ▸ acted)
    exact ⟨q,ran,clean',left',dir',left a _ _ done⟩

theorem bind [Nonempty α] {middle : α → Token → Vars → Prop} {run' : α → β → Setup Unit}
    {after : α → β → Token → Vars → Prop} (first : Refines before x phrase run middle between)
    (rest : ∀ a, Refines (middle a) y second (run' a) (after a) behind)
    (begins : second.Begins behind between) :
    Refines before (x >>= fun _ => y) (phrase.seq second) (fun a => run a.1 >>= fun _ => run' a.1 a.2)
      (fun a => after a.1 a.2) behind where
  erring := first.erring.bind fun _ => (rest (Classical.arbitrary α)).erring
  tame := first.tame.seq begins
  sound p q clean start ran none := by
    obtain ⟨_,m,ran₁,ran₂⟩ := Prog.bind_inv ran
    have none' : m.count = 0 := by
      by_contra errors
      have stay := ((rest (Classical.arbitrary α)).erring m).1 errors
      rw [ran₂] at stay
      exact stay none
    obtain ⟨clean',a,front,read,spelled,acted,done⟩ := first.sound p m clean start ran₁ none'
    obtain ⟨clean'',b,back,read',spelled',acted',done'⟩ := (rest a).sound m q clean' done ran₂ none
    refine ⟨clean'',(a,b),front ++ back,?_,⟨front,back,rfl,spelled,spelled'⟩,?_,done'⟩
    · rw [read,read',List.append_assoc]
    · rw [Prog.bind_ok _ acted]
      exact acted'
  complete p a used ahead dir clean start read spelled follows acted := by
    obtain ⟨front,back,rfl,spelled,spelled'⟩ := spelled
    rw [List.append_assoc] at read
    obtain ⟨_,dir',acted,acted'⟩ := Prog.bind_inv acted
    obtain ⟨m,ran,clean',left,rfl,done⟩ := first.complete p a.1 front (back ++ ahead) dir' clean start
      read spelled (begins a.2 back ahead spelled' follows) acted
    obtain ⟨q,ran',whole⟩ :=
      (rest a.1).complete m a.2 back ahead dir clean' done left spelled' follows acted'
    exact ⟨q,by rw [Prog.bind_ok _ ran,ran'],whole⟩

theorem seq [Nonempty α] {middle : α → Token → Vars → Prop} {run' : α → β → Setup Unit}
    {after : α → β → Token → Vars → Prop} (first : Refines before x phrase run middle Tame)
    (rest : ∀ a, Refines (middle a) y second (run' a) (after a) behind) :
    Refines before (x >>= fun _ => y) (phrase.seq second) (fun a => run a.1 >>= fun _ => run' a.1 a.2)
      (fun a => after a.1 a.2) behind := first.bind rest (rest (Classical.arbitrary α)).tame

theorem also [Nonempty α] {middle : α → Token → Vars → Prop} {run' : α → Setup Unit}
    (first : Refines before x phrase run middle behind)
    (rest : ∀ a, Refines (middle a) y empty (fun _ => run' a) (fun _ => after a) behind) :
    Refines before (x >>= fun _ => y) phrase (fun a => run a >>= fun _ => run' a) after behind := by
  rw [← Phrase.seq_empty phrase]
  exact (first.bind rest (.empty fun _ => id)).map _ (fun _ => rfl) fun _ _ _ => id

theorem first {run' : Setup Unit} (start : Refines before x empty (fun _ => run') (fun _ => middle) Tame)
    (rest : Refines middle y phrase run after behind) :
    Refines before (x >>= fun _ => y) phrase (fun a => run' >>= fun _ => run a) after behind := by
  rw [← Phrase.empty_seq phrase]
  exact (start.seq fun _ => rest).map _ (fun _ => rfl) fun _ _ _ => id

theorem branch {kind : Kind} (yes : Refines before x phrase run after behind)
    (no : Refines before y other run after behind) (starts : phrase.Begins behind (laKind · = kind))
    (others : other.Begins behind (laKind · ≠ kind)) :
    Refines before (branch kind x y) (phrase.or other) run after behind where
  erring := branch_erring yes.erring no.erring
  tame := yes.tame.or no.tame
  sound p q clean start ran none := by
    rw [branch_run] at ran
    by_cases next : laKind p.ahead = kind
    · rw [if_pos next] at ran
      obtain ⟨clean',a,used,read,spelled,rest⟩ := yes.sound p q clean start ran none
      exact ⟨clean',a,used,read,.inl spelled,rest⟩
    · rw [if_neg next] at ran
      obtain ⟨clean',a,used,read,spelled,rest⟩ := no.sound p q clean start ran none
      exact ⟨clean',a,used,read,.inr spelled,rest⟩
  complete p a used ahead dir clean start read spelled follows acted := by
    rw [branch_run,read]
    rcases spelled with spelled | spelled
    · rw [if_pos (starts a used ahead spelled follows)]
      exact yes.complete p a used ahead dir clean start read spelled follows acted
    · rw [if_neg (others a used ahead spelled follows)]
      exact no.complete p a used ahead dir clean start read spelled follows acted

theorem either {kind kind' : Kind} (yes : Refines before x phrase run after behind)
    (no : Refines before y other run after behind)
    (starts : phrase.Begins behind fun ahead => laKind ahead = kind ∨ laKind ahead = kind')
    (others : other.Begins behind fun ahead => laKind ahead ≠ kind ∧ laKind ahead ≠ kind') :
    Refines before (NSql.branch kind x (NSql.branch kind' x y)) (phrase.or other) run after behind where
  erring := branch_erring yes.erring (branch_erring yes.erring no.erring)
  tame := yes.tame.or no.tame
  sound p q clean start ran none := by
    rw [branch_run,branch_run] at ran
    split_ifs at ran
    · obtain ⟨clean',a,used,read,spelled,rest⟩ := yes.sound p q clean start ran none
      exact ⟨clean',a,used,read,.inl spelled,rest⟩
    · obtain ⟨clean',a,used,read,spelled,rest⟩ := yes.sound p q clean start ran none
      exact ⟨clean',a,used,read,.inl spelled,rest⟩
    · obtain ⟨clean',a,used,read,spelled,rest⟩ := no.sound p q clean start ran none
      exact ⟨clean',a,used,read,.inr spelled,rest⟩
  complete p a used ahead dir clean start read spelled follows acted := by
    rw [branch_run,branch_run,read]
    rcases spelled with spelled | spelled
    · have whole := yes.complete p a used ahead dir clean start read spelled follows acted
      rcases starts a used ahead spelled follows with next | next
      · rwa [if_pos next]
      · by_cases other : laKind (used ++ ahead) = kind
        · rwa [if_pos other]
        · rwa [if_neg other,if_pos next]
    · have next := others a used ahead spelled follows
      rw [if_neg next.1,if_neg next.2]
      exact no.complete p a used ahead dir clean start read spelled follows acted

theorem synErr : Refines before synErr never run after behind where
  erring := synErr_erring
  tame := .never
  sound p q clean _ ran none := by
    cases ran
    exact absurd none (report_count p clean)
  complete _ _ _ _ _ _ _ _ spelled := spelled.elim

theorem synErrThen (rest : Steps Erring y) :
    Refines before (NSql.synErr >>= fun _ => y) never run after behind where
  erring := synErr_erring.bind fun _ => rest
  tame := .never
  sound p q clean _ ran none := by
    have stay := (rest p.report).1 (report_count p clean)
    have same : y p.report = (.ok (),q) := ran
    rw [same] at stay
    exact absurd none stay
  complete _ _ _ _ _ _ _ _ spelled := spelled.elim

theorem only {kind : Kind} (yes : Refines before x phrase run after behind)
    (no : Refines before y never run after behind) (starts : phrase.Begins behind (laKind · = kind)) :
    Refines before (NSql.branch kind x y) phrase run after behind := by
  have whole := yes.branch no starts .never
  rwa [Phrase.or_never] at whole

theorem nothing (tame : ∀ ahead, behind ahead → Tame ahead) :
    Refines before nothing empty (fun _ => pure ()) (fun _ => before) behind where
  erring := Steps.pure _
  tame := .empty tame
  sound p q clean start ran _ := by
    cases ran
    exact ⟨clean,(),[],rfl,rfl,rfl,start⟩
  complete p _ used ahead dir clean start read spelled _ acted := by
    cases spelled
    cases acted
    exact ⟨p,rfl,clean,read,rfl,start⟩

theorem optional {kind : Kind} {run : Option α → Setup Unit} {after : Option α → Token → Vars → Prop}
    (yes : Refines before x phrase (fun a => run (some a)) (fun a => after (some a)) behind)
    (no : run none = pure ()) (kept : ∀ t vars, before t vars → after none t vars)
    (starts : phrase.Begins behind (laKind · = kind))
    (others : ∀ ahead, behind ahead → Tame ahead ∧ laKind ahead ≠ kind) :
    Refines before (NSql.branch kind x NSql.nothing) (Phrase.optional phrase) run after behind := by
  refine .branch (.map yes some (fun _ => rfl) fun _ _ _ => id) ?_ starts.map
    (.map (.empty fun ahead after => (others ahead after).2))
  exact .map (.nothing fun ahead after => (others ahead after).1) _ (fun _ => no) fun _ => kept

theorem act {action : Token → Vars → Setup Unit} {known : Setup Unit}
    (same : ∀ t vars, before t vars → action t vars = known) (tame : ∀ ahead, behind ahead → Tame ahead) :
    Refines before (act action) empty (fun _ => known) (fun _ => before) behind where
  erring := act_erring action
  tame := .empty tame
  sound p q clean start ran none := by
    unfold NSql.act at ran
    rw [same _ _ start] at ran
    rcases acted : known p.dir with ⟨(⟨message⟩ | ⟨why⟩) | u,dir⟩
    · rw [acted] at ran
      cases ran
      exact absurd none (report_count {p with dir} ⟨clean.none,clean.counted,clean.tame⟩)
    · rw [acted] at ran
      cases ran
    · rw [acted] at ran
      cases ran
      exact ⟨⟨clean.none,clean.counted,clean.tame⟩,(),[],rfl,rfl,rfl,start⟩
  complete p _ used ahead dir clean start read spelled _ acted := by
    cases spelled
    refine ⟨{p with dir},?_,⟨clean.none,clean.counted,clean.tame⟩,read,rfl,start⟩
    unfold NSql.act
    rw [same _ _ start,acted]

theorem set {change : Token → Vars → Vars} (holds : ∀ t vars, before t vars → middle t (change t vars))
    (tame : ∀ ahead, behind ahead → Tame ahead) :
    Refines before (set change) empty (fun _ => pure ()) (fun _ => middle) behind where
  erring := Steps.modify fun _ => id
  tame := .empty tame
  sound p q clean start ran _ := by
    cases ran
    exact ⟨⟨clean.none,clean.counted,clean.tame⟩,(),[],rfl,rfl,rfl,holds _ _ start⟩
  complete p _ used ahead dir clean start read spelled _ acted := by
    cases spelled
    cases acted
    exact ⟨_,rfl,⟨clean.none,clean.counted,clean.tame⟩,read,rfl,holds _ _ start⟩

theorem get {γ : Type} {rest : γ → Production} (f : Token → γ) (c : γ)
    (known : ∀ t vars, before t vars → f t = c) (refines : Refines before (rest c) phrase run after behind)
    (erring : ∀ c, Steps Erring (rest c)) :
    Refines before (Prog.get >>= fun p => rest (f p.t)) phrase run after behind where
  erring := Steps.get fun p => erring _
  tame := refines.tame
  sound p q clean start ran none := by
    rw [Prog.bind_ok _ (Prog.get_run p),known _ _ start] at ran
    exact refines.sound p q clean start ran none
  complete p a used ahead dir clean start read spelled follows acted := by
    rw [Prog.bind_ok _ (Prog.get_run p),known _ _ start]
    exact refines.complete p a used ahead dir clean start read spelled follows acted

theorem expect {given : Vars → Prop} {kind : Kind} (some : kind ≠ .eof) (plain : kind ≠ .wild) :
    Refines (fun _ => given) (expect kind) (Grammar.token kind) (fun _ => pure ())
      (fun t t' vars => t' = t ∧ given vars) Tame where
  erring := expect_erring kind
  tame := .one fun t rest same _ wild => plain (same.symm.trans wild)
  sound p q clean start ran none := by
    unfold NSql.expect at ran
    rw [branch_run] at ran
    split at ran
    case isFalse =>
      cases ran
      exact absurd none (report_count p clean)
    case isTrue next =>
      unfold getToken at ran
      dsimp only at ran
      split at ran
      · cases ran
      case isFalse tame =>
        cases ran
        refine ⟨⟨none,Nat.le_succ_of_le clean.counted,tame⟩,p.ahead.head?.getD .eof,
          [p.ahead.head?.getD .eof],?_,⟨next,rfl⟩,rfl,rfl,start⟩
        cases there : p.ahead with
        | nil =>
          rw [there] at next
          exact absurd next.symm some
        | cons t ahead => rfl
  complete p t used ahead dir clean start read spelled follows acted := by
    obtain ⟨same,rfl⟩ := spelled
    cases acted
    refine ⟨{p with t, ahead, errDist := p.errDist + 1},?_,
      ⟨clean.none,Nat.le_succ_of_le clean.counted,follows⟩,rfl,rfl,rfl,start⟩
    have next : laKind p.ahead = kind := by
      rw [read]
      exact same
    unfold NSql.expect
    rw [branch_run,if_pos next]
    unfold getToken
    rw [read]
    exact if_neg follows

theorem taken {given : Vars → Prop} {kind : Kind} {run : Token → Setup Unit}
    {after : Token → Token → Vars → Prop} (some : kind ≠ .eof) (plain : kind ≠ .wild)
    (rest : ∀ token, Refines (fun t vars => t = token ∧ given vars) y empty (fun _ => run token)
      (fun _ => after token) Tame) :
    Refines (fun _ => given) (NSql.expect kind >>= fun _ => y) (Grammar.token kind) run after Tame := by
  have : Nonempty Token := ⟨.eof⟩
  exact ((expect some plain).also rest).mono (fun _ _ => id) (fun _ _ _ => id) fun _ => id

theorem skip {given : Vars → Prop} {kind : Kind} (some : kind ≠ .eof) (plain : kind ≠ .wild)
    (rest : Refines (fun _ => given) y phrase run after behind) :
    Refines (fun _ => given) (NSql.expect kind >>= fun _ => y) ((Grammar.token kind).next phrase) run
      after behind := by
  have : Nonempty Token := ⟨.eof⟩
  exact ((expect some plain).seq fun _ => rest.mono (fun _ _ => And.right) (fun _ _ _ => id) fun _ => id).map Prod.snd (fun _ => rfl) fun _ _ _ => id

end Refines

theorem branch_taken (kind : Kind) (rest : Unit → Production) (no : Production) :
    branch kind (getToken >>= rest) no = branch kind (expect kind >>= rest) no := by
  funext p
  rw [branch_run,branch_run]
  split
  · next there =>
    have same : expect kind p = getToken p := by
      unfold expect
      rw [branch_run,if_pos there]
    rw [Prog.bind_run,Prog.bind_run,same]
  · rfl

theorem branch_get (kind : Kind) (no : Production) :
    branch kind getToken no = branch kind (expect kind) no := by
  funext p
  unfold expect
  rw [branch_run,branch_run,branch_run]
  split <;> rfl

section
variable {α : Type} {phrase : Phrase Token α} {run : α → Setup Unit} {given : Vars → Prop}
  {item : Production} {between behind : List Token → Prop}

def items (separator : Kind) (phrase : Phrase Token α) : Nat → Phrase Token (List α)
  | 0 => never
  | fuel + 1 => (((Grammar.token separator).next (phrase.seq (items separator phrase fuel))).map
      fun a => a.1::a.2).or (empty.map fun _ => [])

theorem items_iff (separator : Kind) (fuel : Nat) (as : List α) (used : List Token) :
    items separator phrase fuel as used ↔
      as.length < fuel ∧ many (Grammar.token separator) phrase as used := by
  induction fuel generalizing as used with
  | zero => exact iff_of_false id fun both => Nat.not_lt_zero _ both.1
  | succ fuel ih =>
    constructor
    · rintro (⟨⟨a,rest⟩,rfl,spelled⟩ | ⟨_,rfl,rfl⟩)
      · obtain ⟨t,front,_,rfl,took,item,back,rfl,spelled,more⟩ := (Phrase.next_iff _ _ _ _).mp spelled
        obtain ⟨below,others⟩ := (ih rest back).mp more
        exact ⟨Nat.succ_lt_succ below,front ++ item,back,(List.append_assoc _ _ _).symm,
          (Phrase.next_iff _ _ _ _).mpr ⟨t,front,item,rfl,took,spelled⟩,others⟩
      · exact ⟨Nat.succ_pos _,rfl⟩
    · rintro ⟨below,spelled⟩
      cases as with
      | nil => exact .inr ⟨(),rfl,spelled⟩
      | cons a as =>
        obtain ⟨_,back,rfl,spelled,others⟩ := spelled
        obtain ⟨t,front,item,rfl,took,spelled⟩ := (Phrase.next_iff _ _ _ _).mp spelled
        exact .inl ⟨(a,as),rfl,(Phrase.next_iff _ _ _ _).mpr ⟨t,front,item ++ back,
          List.append_assoc _ _ _,took,item,back,rfl,spelled,
          (ih as back).mpr ⟨Nat.lt_of_succ_lt_succ below,others⟩⟩⟩

theorem many_length (separator : Kind) (as : List α) (used : List Token)
    (spelled : many (Grammar.token separator) phrase as used) : as.length ≤ used.length := by
  induction as generalizing used with
  | nil => exact Nat.zero_le _
  | cons a as ih =>
    obtain ⟨_,rest,rfl,spelled,others⟩ := spelled
    obtain ⟨t,_,item,rfl,⟨_,rfl⟩,_⟩ := (Phrase.next_iff _ _ _ _).mp spelled
    have below := ih rest others
    simp only [List.length_append,List.length_cons]
    omega

theorem furtherItems_refines [Nonempty α] {separator : Kind} (some : separator ≠ .eof)
    (plain : separator ≠ .wild)
    (each : Refines (fun _ => given) item phrase run (fun _ _ => given) between)
    (goes : ∀ ahead, laKind ahead = separator → between ahead)
    (ends : ∀ ahead, behind ahead → between ahead ∧ Tame ahead ∧ laKind ahead ≠ separator) (fuel : Nat) :
    Refines (fun _ => given) (furtherItems separator item fuel) (items separator phrase fuel)
      (fun as => as.forM run) (fun _ _ => given) behind := by
  induction fuel with
  | zero =>
    exact {
      erring := Steps.fail _
      tame := .never
      sound := fun p q _ _ ran => by cases ran
      complete := fun _ _ _ _ _ _ _ _ spelled => spelled.elim }
  | succ fuel ih =>
    have again : (items separator phrase fuel).Begins behind between := by
      cases fuel with
      | zero => exact .never
      | succ fuel =>
        exact ((First.token separator).next.map.is.mono (fun _ => id) goes).or
          (.map (.empty fun rest after => (ends rest after).1))
    change Refines _ (branch separator (getToken >>= fun _ => item >>= fun _ =>
      furtherItems separator item fuel) nothing) _ _ _ _
    rw [branch_taken]
    refine .branch ?_ ?_ (First.token separator).next.map.is (.map (.empty fun rest after => (ends rest after).2.2))
    · exact (Refines.skip some plain (each.bind (fun _ => ih) again)).map _ (fun _ => rfl)
        fun _ _ _ => id
    · exact (Refines.nothing fun rest after => (ends rest after).2.1).map _ (fun _ => rfl)
        fun _ _ _ => id

theorem further_refines [Nonempty α] {separator : Kind} (some : separator ≠ .eof)
    (plain : separator ≠ .wild)
    (each : Refines (fun _ => given) item phrase run (fun _ _ => given) between)
    (goes : ∀ ahead, laKind ahead = separator → between ahead)
    (ends : ∀ ahead, behind ahead → between ahead ∧ Tame ahead ∧ laKind ahead ≠ separator) :
    Refines (fun _ => given) (further separator item) (many (Grammar.token separator) phrase)
      (fun as => as.forM run) (fun _ _ => given) behind where
  erring := Steps.get fun _ => furtherItems_erring each.erring _
  tame := .many (.one fun _ _ same _ wild => plain (same.symm.trans wild))
    fun rest after => (ends rest after).2.1
  sound p q clean start ran none := by
    obtain ⟨clean',a,used,read,spelled,rest⟩ :=
      (furtherItems_refines some plain each goes ends _).sound p q clean start ran none
    exact ⟨clean',a,used,read,((items_iff _ _ _ _).mp spelled).2,rest⟩
  complete p as used ahead dir clean start read spelled follows acted := by
    refine (furtherItems_refines some plain each goes ends (p.ahead.length + 1)).complete p as used ahead
      dir clean start read ((items_iff _ _ _ _).mpr ⟨?_,spelled⟩) follows acted
    have below := many_length separator as used spelled
    rw [read,List.length_append]
    omega

theorem list_refines [Nonempty α] {separator : Kind} (some : separator ≠ .eof)
    (plain : separator ≠ .wild)
    (each : Refines (fun _ => given) item phrase run (fun _ _ => given) between)
    (goes : ∀ ahead, laKind ahead = separator → between ahead)
    (ends : ∀ ahead, behind ahead → between ahead ∧ Tame ahead ∧ laKind ahead ≠ separator) :
    Refines (fun _ => given) (item >>= fun _ => further separator item)
      (Phrase.list (Grammar.token separator) phrase) (fun as => as.forM run) (fun _ _ => given) behind := by
  refine (each.bind (fun _ => further_refines some plain each goes ends) ?_).map _ (fun _ => rfl)
    fun _ _ _ => id
  exact .many (.one fun _ _ same _ => goes _ same) fun rest after => (ends rest after).1

end

end ModNdb.NSql
