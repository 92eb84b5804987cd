import Mathlib.Data.List.Induction

namespace Runs

variable {σ : Type u} {ε : Type v} {step : σ → ε → Option σ}

-- A machine is its step function; `none` means that the event cannot happen in
-- that state. Running is a fold, so every prefix of a run has one state.
def run (step : σ → ε → Option σ) : σ → List ε → Option σ
  | s,[] => some s
  | s,e :: rest => (step s e).bind (run step · rest)

@[simp] theorem run_one {s : σ} {e : ε} : run step s [e] = step s e := by
  cases taken : step s e <;> simp [run,taken]

theorem run_append (s : σ) (first second : List ε) :
    run step s (first ++ second) = (run step s first).bind (run step · second) := by
  induction first generalizing s with
  | nil => rfl
  | cons e rest ih =>
      cases taken : step s e with
      | none => simp [run,taken]
      | some next => simpa [run,taken] using ih next

theorem run_snoc {s t : σ} {past : List ε} {e : ε} :
    run step s (past ++ [e]) = some t ↔ ∃ middle, run step s past = some middle ∧ step middle e = some t := by
  rw [run_append]
  cases run step s past with
  | none => simp
  | some middle => simp [run]

theorem run_split {s t : σ} {past rest : List ε} {e : ε} (ran : run step s (past ++ e :: rest) = some t) :
    ∃ before after, run step s past = some before ∧ step before e = some after ∧
      run step after rest = some t := by
  rw [run_append] at ran
  obtain ⟨before,first,ran⟩ := Option.bind_eq_some_iff.mp ran
  obtain ⟨after,taken,second⟩ := Option.bind_eq_some_iff.mp ran
  exact ⟨before,after,first,taken,second⟩

theorem run_reaches {P : σ → Prop} [DecidablePred P] {origin : σ} {events : List ε}
    (checked : (run step origin events).map (fun s => decide (P s)) = some true) :
    ∃ s, run step origin events = some s ∧ P s := by
  obtain ⟨s,ran,holds⟩ := Option.map_eq_some_iff.mp checked
  exact ⟨s,ran,of_decide_eq_true holds⟩

theorem run_continues {P : σ → σ → Prop} [∀ s t, Decidable (P s t)] {origin : σ} {past events : List ε}
    (checked : (run step origin past).bind (fun s => (run step s events).map fun t => decide (P s t)) = some true) :
    ∃ s t, run step origin past = some s ∧ run step s events = some t ∧ P s t := by
  obtain ⟨s,first,checked⟩ := Option.bind_eq_some_iff.mp checked
  obtain ⟨t,second,holds⟩ := run_reaches checked
  exact ⟨s,t,first,second,holds⟩

-- The induction carries the past as well as the state: what a run promises
-- often depends on what happened, not only on where it ended.
theorem run_induction {I : List ε → σ → Prop} {origin final : σ} {events : List ε} (start : I [] origin)
    (keeps : ∀ past s e t, run step origin past = some s → I past s → step s e = some t → I (past ++ [e]) t)
    (ran : run step origin events = some final) : I events final := by
  induction events using List.reverseRecOn generalizing final with
  | nil => cases ran; exact start
  | append_singleton past e ih =>
      obtain ⟨middle,before,taken⟩ := run_snoc.mp ran
      exact keeps past middle e final before (ih before) taken

theorem run_induction_within {I : List ε → σ → Prop} {origin final : σ} {events : List ε} (start : I [] origin)
    (keeps : ∀ past s e rest t, events = past ++ e :: rest → run step origin past = some s → I past s →
      step s e = some t → I (past ++ [e]) t)
    (ran : run step origin events = some final) : I events final := by
  refine run_induction (I := fun past s => ∀ rest, events = past ++ rest → I past s) (fun _ _ => start) ?_ ran []
    (by simp)
  intro past s e t reached ih taken rest split
  have longer : events = past ++ e :: rest := by rw [split,List.append_assoc]; rfl
  exact keeps past s e rest t longer reached (ih _ longer) taken

theorem run_invariant {I : σ → Prop} {origin final : σ} {events : List ε} (start : I origin)
    (keeps : ∀ s e t, I s → step s e = some t → I t) (ran : run step origin events = some final) : I final :=
  run_induction (I := fun _ => I) start (fun _ s e t _ => keeps s e t) ran

-- `P` in every state that the run passes, `ok` before and `R` around every step
-- that it takes; all three see what happened so far.
def Always (step : σ → ε → Option σ) (origin : σ) (events : List ε) (P : List ε → σ → Prop) : Prop :=
  ∀ past rest s, events = past ++ rest → run step origin past = some s → P past s

def Guarded (step : σ → ε → Option σ) (origin : σ) (events : List ε) (ok : List ε → σ → ε → Prop) : Prop :=
  ∀ past e rest s, events = past ++ e :: rest → run step origin past = some s → ok past s e

def Throughout (step : σ → ε → Option σ) (origin : σ) (events : List ε) (R : List ε → σ → ε → σ → Prop) : Prop :=
  ∀ past e rest s t, events = past ++ e :: rest → run step origin past = some s → step s e = some t → R past s e t

section

variable {origin final : σ} {events : List ε} {P : List ε → σ → Prop} {R : List ε → σ → ε → σ → Prop}
    {ok : List ε → σ → ε → Prop}

theorem always_of_guarded (start : P [] origin)
    (keeps : ∀ past s e rest t, events = past ++ e :: rest → run step origin past = some s → P past s →
      ok past s e → step s e = some t → P (past ++ [e]) t)
    (guarded : Guarded step origin events ok) : Always step origin events P := by
  intro past rest s split reached
  refine run_induction_within start ?_ reached
  intro front s e between t parts before good taken
  have longer : events = front ++ e :: (between ++ rest) := by rw [split,parts,List.append_assoc]; rfl
  exact keeps front s e _ t longer before good (guarded front e _ s longer before) taken

-- When, from good states, the good next states and the right steps are those that
-- a guard lets through, a run is good and right exactly when its steps meet it.
theorem always_throughout_iff_guarded (start : P [] origin)
    (exact : ∀ past s e rest t, events = past ++ e :: rest → run step origin past = some s → P past s →
      step s e = some t → (P (past ++ [e]) t ∧ R past s e t ↔ ok past s e))
    (ran : run step origin events = some final) :
    Always step origin events P ∧ Throughout step origin events R ↔ Guarded step origin events ok := by
  constructor
  · intro both past e rest s split reached
    obtain ⟨always,throughout⟩ := both
    obtain ⟨before,after,first,taken,_⟩ := run_split (split ▸ ran)
    cases reached.symm.trans first
    have next : run step origin (past ++ [e]) = some after := run_snoc.mpr ⟨s,reached,taken⟩
    refine (exact past s e rest after split reached (always past (e :: rest) s split reached) taken).mp ⟨?_,?_⟩
    · exact always (past ++ [e]) rest after (by simp [split]) next
    · exact throughout past e rest s after split reached taken
  · intro guarded
    have always : Always step origin events P := always_of_guarded start
      (fun past s e rest t split reached good permitted taken =>
        ((exact past s e rest t split reached good taken).mpr permitted).1) guarded
    refine ⟨always,fun past e rest s t split reached taken => ?_⟩
    exact ((exact past s e rest t split reached (always past (e :: rest) s split reached) taken).mpr
      (guarded past e rest s split reached)).2

theorem always_iff_guarded (start : P [] origin)
    (exact : ∀ past s e t, run step origin past = some s → P past s → step s e = some t →
      (P (past ++ [e]) t ↔ ok past s e))
    (ran : run step origin events = some final) :
    Always step origin events P ↔ Guarded step origin events ok := by
  have both := always_throughout_iff_guarded (R := fun _ _ _ _ => True) start
    (fun past s e _ t _ reached good taken => (iff_of_eq (and_true _)).trans (exact past s e t reached good taken)) ran
  exact ⟨fun always => both.mp ⟨always,fun _ _ _ _ _ _ _ _ => trivial⟩,fun guarded => (both.mpr guarded).1⟩

theorem throughout_iff_guarded
    (exact : ∀ past s e t, run step origin past = some s → step s e = some t → (R past s e t ↔ ok past s e))
    (ran : run step origin events = some final) :
    Throughout step origin events R ↔ Guarded step origin events ok := by
  have both := always_throughout_iff_guarded (P := fun _ _ => True) trivial
    (fun past s e _ t _ reached _ taken => (iff_of_eq (true_and _)).trans (exact past s e t reached taken)) ran
  exact ⟨fun throughout => both.mp ⟨fun _ _ _ _ _ => trivial,throughout⟩,fun guarded => (both.mpr guarded).2⟩

end

def checks (step : σ → ε → Option σ) (ok : σ → ε → Bool) : σ → List ε → Bool
  | _,[] => true
  | s,e :: rest => ok s e && (step s e).all (checks step ok · rest)

theorem guarded_of_checks {origin : σ} {events : List ε} {ok : σ → ε → Prop} [∀ s e, Decidable (ok s e)]
    (checked : checks step (fun s e => decide (ok s e)) origin events = true) :
    Guarded step origin events fun _ s e => ok s e := by
  intro past e rest s split reached
  subst split
  induction past generalizing origin with
  | nil =>
      obtain rfl := Option.some.inj reached
      simp only [List.nil_append,checks,Bool.and_eq_true,decide_eq_true_eq] at checked
      exact checked.1
  | cons x past ih =>
      obtain ⟨t,taken,reached⟩ := Option.bind_eq_some_iff.mp reached
      simp only [List.cons_append,checks,taken,Option.all_some,Bool.and_eq_true] at checked
      exact ih reached checked.2

theorem split_snoc {events past rest : List ε} {e x : ε} (split : events ++ [e] = past ++ x :: rest) :
    (past = events ∧ x = e ∧ rest = []) ∨ ∃ front, rest = front ++ [e] ∧ events = past ++ x :: front := by
  rcases List.eq_nil_or_concat rest with rfl | ⟨front,final,rfl⟩
  · obtain ⟨rfl,same⟩ := List.append_inj' split rfl
    cases same
    exact .inl ⟨rfl,rfl,rfl⟩
  · rw [List.concat_eq_append,← List.cons_append,← List.append_assoc] at split
    obtain ⟨rfl,same⟩ := List.append_inj' split rfl
    cases same
    exact .inr ⟨front,List.concat_eq_append,rfl⟩

def Occurs (step : σ → ε → Option σ) (origin : σ) (events : List ε) (p : σ → ε → Prop) : Prop :=
  ∃ past e rest s, events = past ++ e :: rest ∧ run step origin past = some s ∧ p s e

theorem occurs_nil {origin : σ} {p : σ → ε → Prop} : ¬ Occurs step origin [] p := by
  intro both
  obtain ⟨past,e,rest,s,split,_⟩ := both
  simp at split

theorem occurs_snoc {origin s : σ} {past : List ε} {e : ε} {p : σ → ε → Prop}
    (reached : run step origin past = some s) :
    Occurs step origin (past ++ [e]) p ↔ Occurs step origin past p ∨ p s e := by
  constructor
  · intro both
    obtain ⟨first,x,rest,t,split,before,found⟩ := both
    rcases split_snoc split with ⟨rfl,rfl,rfl⟩ | ⟨front,rfl,earlier⟩
    · cases reached.symm.trans before
      exact .inr found
    · exact .inl ⟨first,x,front,t,earlier,before,found⟩
  · intro either
    rcases either with ⟨first,x,rest,t,split,before,found⟩ | found
    · exact ⟨first,x,rest ++ [e],t,by rw [split,List.append_assoc]; rfl,before,found⟩
    · exact ⟨past,e,[],s,rfl,reached,found⟩

theorem Occurs.extend {origin : σ} {past : List ε} {p : σ → ε → Prop} (occurs : Occurs step origin past p)
    (rest : List ε) : Occurs step origin (past ++ rest) p := by
  obtain ⟨first,x,others,s,split,before,found⟩ := occurs
  exact ⟨first,x,others ++ rest,s,by rw [split,List.append_assoc]; rfl,before,found⟩

def Before (step : σ → ε → Option σ) (origin : σ) (events : List ε) (p q : σ → ε → Prop) : Prop :=
  ∃ past e rest s, events = past ++ e :: rest ∧ run step origin past = some s ∧ q s e ∧ Occurs step origin past p

theorem before_snoc {origin s : σ} {past : List ε} {e : ε} {p q : σ → ε → Prop}
    (reached : run step origin past = some s) :
    Before step origin (past ++ [e]) p q ↔ Before step origin past p q ∨ (q s e ∧ Occurs step origin past p) := by
  constructor
  · intro both
    obtain ⟨first,x,rest,t,split,before,found,earlier⟩ := both
    rcases split_snoc split with ⟨rfl,rfl,rfl⟩ | ⟨front,rfl,same⟩
    · cases reached.symm.trans before
      exact .inr ⟨found,earlier⟩
    · exact .inl ⟨first,x,front,t,same,before,found,earlier⟩
  · intro either
    rcases either with ⟨first,x,rest,t,split,before,found,earlier⟩ | ⟨found,earlier⟩
    · exact ⟨first,x,rest ++ [e],t,by rw [split,List.append_assoc]; rfl,before,found,earlier⟩
    · exact ⟨past,e,[],s,rfl,reached,found,earlier⟩

theorem Before.extend {origin : σ} {past : List ε} {p q : σ → ε → Prop} (before : Before step origin past p q)
    (rest : List ε) : Before step origin (past ++ rest) p q := by
  obtain ⟨first,x,others,s,split,reached,found,earlier⟩ := before
  exact ⟨first,x,others ++ rest,s,by rw [split,List.append_assoc]; rfl,reached,found,earlier⟩

def Since (step : σ → ε → Option σ) (origin : σ) (events : List ε) (p q : σ → ε → Prop) : Prop :=
  ∃ past e rest s t, events = past ++ e :: rest ∧ run step origin past = some s ∧ step s e = some t ∧ p s e ∧
    ¬ Occurs step t rest q

theorem since_nil {origin : σ} {p q : σ → ε → Prop} : ¬ Since step origin [] p q := by
  intro since
  obtain ⟨past,e,rest,s,t,split,_⟩ := since
  simp at split

theorem since_snoc {origin s t : σ} {past : List ε} {e : ε} {p q : σ → ε → Prop}
    (reached : run step origin past = some s) (taken : step s e = some t) :
    Since step origin (past ++ [e]) p q ↔ p s e ∨ (Since step origin past p q ∧ ¬ q s e) := by
  constructor
  · intro since
    obtain ⟨first,x,rest,before,after,split,start,moved,found,quiet⟩ := since
    rcases split_snoc split with ⟨rfl,rfl,rfl⟩ | ⟨front,rfl,rfl⟩
    · cases reached.symm.trans start
      exact .inl found
    · obtain ⟨_,_,start',moved',later⟩ := run_split reached
      cases start.symm.trans start'
      cases moved.symm.trans moved'
      rw [occurs_snoc later,not_or] at quiet
      exact .inr ⟨⟨first,x,front,before,after,rfl,start,moved,found,quiet.1⟩,quiet.2⟩
  · intro either
    rcases either with found | ⟨⟨first,x,rest,before,after,rfl,start,moved,found,quiet⟩,miss⟩
    · exact ⟨past,e,[],s,t,rfl,reached,taken,found,occurs_nil⟩
    · obtain ⟨_,_,start',moved',later⟩ := run_split reached
      cases start.symm.trans start'
      cases moved.symm.trans moved'
      refine ⟨first,x,rest ++ [e],before,after,by simp,start,moved,found,?_⟩
      rw [occurs_snoc later,not_or]
      exact ⟨quiet,miss⟩

theorem run_origin {α : Type w} (items : σ → α → Prop) (made : α → σ → ε → Prop) {origin final : σ}
    {events : List ε} {x : α}
    (fresh : ∀ s e t, step s e = some t → items t x → items s x ∨ made x s e)
    (ran : run step origin events = some final) (present : items final x) :
    items origin x ∨ Occurs step origin events (made x) := by
  refine run_induction (I := fun events final => items final x → items origin x ∨ Occurs step origin events (made x))
    Or.inl ?_ ran present
  intro past s e t reached ih taken present
  rw [occurs_snoc reached]
  rcases fresh s e t taken present with old | new
  · exact (ih old).imp_right Or.inl
  · exact .inr (.inr new)

def LastAt (p : ε → Prop) (events past : List ε) (e : ε) (rest : List ε) : Prop :=
  events = past ++ e :: rest ∧ p e ∧ ∀ x ∈ rest, ¬ p x

theorem lastAt_hit {p : ε → Prop} {events past rest : List ε} {e x : ε} (hit : p e) :
    LastAt p (events ++ [e]) past x rest ↔ past = events ∧ x = e ∧ rest = [] := by
  constructor
  · intro both
    obtain ⟨split,_,none⟩ := both
    rcases split_snoc split with final | ⟨front,rfl,_⟩
    · exact final
    · exact absurd hit (none e (by simp))
  · intro both
    obtain ⟨rfl,rfl,rfl⟩ := both
    exact ⟨rfl,hit,by simp⟩

theorem lastAt_snoc {p : ε → Prop} {events past rest : List ε} {e x : ε} (last : LastAt p events past x rest)
    (miss : ¬ p e) : LastAt p (events ++ [e]) past x (rest ++ [e]) := by
  obtain ⟨rfl,found,none⟩ := last
  refine ⟨by simp,found,fun y member => ?_⟩
  rcases List.mem_append.mp member with old | new
  · exact none y old
  · exact List.mem_singleton.mp new ▸ miss

theorem lastAt_unique {p : ε → Prop} {events past rest front others : List ε} {e x : ε}
    (first : LastAt p events past e rest) (second : LastAt p events front x others) :
    past = front ∧ e = x ∧ rest = others := by
  obtain ⟨split,found,none⟩ := first
  obtain ⟨split',found',none'⟩ := second
  rw [split] at split'
  rcases List.append_eq_append_iff.mp split' with ⟨between,longer,same⟩ | ⟨between,longer,same⟩
  · cases between with
    | nil => simp_all
    | cons y between =>
        cases same
        exact absurd found' (none x (by simp))
  · cases between with
    | nil => simp_all
    | cons y between =>
        cases same
        exact absurd found (none' e (by simp))

theorem run_written {α : Type w} (value : σ → α) {write : σ → ε → Option α} {origin final : σ} {events : List ε}
    (exact : ∀ past s e rest t, events = past ++ e :: rest → run step origin past = some s → step s e = some t →
      value t = (write s e).getD (value s))
    (ran : run step origin events = some final) (x : α) :
    value final = x ↔ Since step origin events (fun s e => write s e = some x) (fun s e => write s e ≠ none) ∨
      value origin = x ∧ ¬ Occurs step origin events fun s e => write s e ≠ none := by
  refine run_induction_within (I := fun events final => value final = x ↔
    Since step origin events (fun s e => write s e = some x) (fun s e => write s e ≠ none) ∨
      value origin = x ∧ ¬ Occurs step origin events fun s e => write s e ≠ none) ?_ ?_ ran
  · constructor
    · exact fun same => .inr ⟨same,occurs_nil⟩
    · intro either
      rcases either with since | same
      · exact absurd since since_nil
      · exact same.1
  · intro past s e rest t split reached ih taken
    rw [exact past s e rest t split reached taken,since_snoc reached taken,occurs_snoc reached]
    cases written : write s e with
    | none => simp [ih]
    | some y => simp

theorem run_simulates {τ : Type w} {δ : Type x} {target : τ → δ → Option τ} {R : σ → τ → Prop} {origin final : σ}
    {first : τ} {events : List ε} (start : R origin first)
    (follows : ∀ past s e t u, run step origin past = some s → R s u → step s e = some t →
      ∃ moves v, run target u moves = some v ∧ R t v)
    (ran : run step origin events = some final) :
    ∃ moves last, run target first moves = some last ∧ R final last := by
  refine run_induction (I := fun _ final => ∃ moves last, run target first moves = some last ∧ R final last)
    ⟨[],first,rfl,start⟩ ?_ ran
  intro past s e t reached ih taken
  obtain ⟨moves,u,before,related⟩ := ih
  obtain ⟨more,v,after,next⟩ := follows past s e t u reached related taken
  exact ⟨moves ++ more,v,by rw [run_append,before]; exact after,next⟩

theorem run_projects {τ : Type w} {δ : Type x} {target : τ → δ → Option τ} {R : σ → τ → Prop} (move : ε → Option δ)
    {origin final : σ} {first : τ} {events : List ε} (start : R origin first)
    (follows : ∀ s e t u, R s u → step s e = some t → ∃ v, run target u (move e).toList = some v ∧ R t v)
    (ran : run step origin events = some final) :
    ∃ last, run target first (events.filterMap move) = some last ∧ R final last := by
  refine run_induction (I := fun past s => ∃ last, run target first (past.filterMap move) = some last ∧ R s last)
    ⟨first,rfl,start⟩ ?_ ran
  intro past s e t _ ih taken
  obtain ⟨u,before,related⟩ := ih
  obtain ⟨v,after,next⟩ := follows s e t u related taken
  have one : [e].filterMap move = (move e).toList := by cases moved : move e <;> simp [moved]
  exact ⟨v,by rw [List.filterMap_append,run_append,before,one]; exact after,next⟩

theorem run_last {α : Type w} (value : σ → α) (write : ε → Option α) {origin final : σ} {events : List ε}
    (exact : ∀ s e t, step s e = some t → value t = (write e).getD (value s))
    (ran : run step origin events = some final) :
    value final = (events.filterMap write).getLastD (value origin) := by
  refine run_induction (I := fun past s => value s = (past.filterMap write).getLastD (value origin)) rfl ?_ ran
  intro past s e t _ ih taken
  rw [exact s e t taken,List.filterMap_append]
  cases written : write e with
  | none => simpa [written] using ih
  | some x => simp [written]

end Runs
