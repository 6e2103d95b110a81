import Mathlib.Init

namespace Trapping

variable {ε σ α β ι : Type}

def final (x : EStateM ε σ α) (s : σ) : σ :=
  match x.run s with
  | .ok _ s' => s'
  | .error _ s' => s'

def trapOf (x : EStateM ε σ α) (s : σ) : Option ε :=
  match x.run s with
  | .ok _ _ => none
  | .error e _ => some e

theorem final_of_run_ok {x : EStateM ε σ α} {s s' : σ} {value : α} (ran : x.run s = .ok value s') : final x s = s' := by
  simp only [final, ran]

theorem trapOf_congr {x y : EStateM ε σ α} {s s' : σ} (same : x.run s = y.run s') : trapOf x s = trapOf y s' := by
  simp only [trapOf, same]

theorem run_eq_of_trapOf_eq_none {x : EStateM ε σ Unit} {s : σ} (runs : trapOf x s = none) :
    x.run s = .ok () (final x s) := by
  unfold trapOf at runs
  unfold final
  cases ran : x.run s with
  | ok value s' => rfl
  | error e s' => simp [ran] at runs

/-- From every state in `pre` the computation ends in `post`, or traps in `trap`. -/
def Triple (pre : σ → Prop) (x : EStateM ε σ α) (post : α → σ → Prop) (trap : ε → σ → Prop) : Prop :=
  ∀ s, pre s → match x.run s with
    | .ok value s' => post value s'
    | .error e s' => trap e s'

section Rules

variable {pre : σ → Prop} {post : α → σ → Prop} {trap : ε → σ → Prop} {x : EStateM ε σ α}

theorem Triple.of_run_ok {s s' : σ} {value : α} (triple : Triple pre x post trap) (start : pre s)
    (ran : x.run s = .ok value s') : post value s' := by
  have outcome := triple s start
  rw [ran] at outcome
  exact outcome

theorem Triple.pure {value : α} (start : ∀ s, pre s → post value s) :
    Triple pre (pure value : EStateM ε σ α) post trap := start

theorem Triple.throw {e : ε} (start : ∀ s, pre s → trap e s) :
    Triple pre (throw e : EStateM ε σ α) post trap := start

theorem Triple.get : Triple pre (get : EStateM ε σ σ) (fun value s => value = s ∧ pre s) trap :=
  fun _ start => ⟨rfl, start⟩

theorem Triple.modify {f : σ → σ} {post : σ → Prop} (step : ∀ s, pre s → post (f s)) :
    Triple pre (modify f : EStateM ε σ Unit) (fun _ => post) trap := step

theorem Triple.strengthen {weaker : σ → Prop} (triple : Triple weaker x post trap) (start : ∀ s, pre s → weaker s) :
    Triple pre x post trap := fun s holds => triple s (start s holds)

theorem Triple.weaken {weaker : ε → σ → Prop} (triple : Triple pre x post trap)
    (traps : ∀ e s, trap e s → weaker e s) : Triple pre x post weaker := by
  intro s start
  have outcome := triple s start
  cases ran : x.run s with
  | ok value s' => rw [ran] at outcome; exact outcome
  | error e s' => rw [ran] at outcome; exact traps e s' outcome

theorem Triple.conclude {weaker : α → σ → Prop} (triple : Triple pre x post trap)
    (ends : ∀ value s, post value s → weaker value s) : Triple pre x weaker trap := by
  intro s start
  have outcome := triple s start
  cases ran : x.run s with
  | ok value s' => rw [ran] at outcome; exact ends value s' outcome
  | error e s' => rw [ran] at outcome; exact outcome

theorem Triple.bind {middle : α → σ → Prop} {post : β → σ → Prop} {f : α → EStateM ε σ β}
    (first : Triple pre x middle trap) (rest : ∀ value, Triple (middle value) (f value) post trap) :
    Triple pre (x >>= f) post trap := by
  intro s start
  have outcome := first s start
  rw [EStateM.run_bind]
  cases ran : x.run s with
  | ok value s' => rw [ran] at outcome; exact rest value s' outcome
  | error e s' => rw [ran] at outcome; exact outcome

theorem Triple.get_bind {post : β → σ → Prop} {f : σ → EStateM ε σ β}
    (rest : ∀ value, Triple pre (f value) post trap) : Triple pre (MonadState.get >>= f) post trap := by
  intro s start
  exact rest s s start

theorem Triple.read_bind {post : β → σ → Prop} {f : σ → EStateM ε σ β}
    (rest : ∀ s, pre s → Triple (· = s) (f s) post trap) : Triple pre (MonadState.get >>= f) post trap :=
  fun s start => rest s start s rfl

theorem Triple.final {inv : σ → Prop} {allowed : ε → Prop} {s : σ}
    (triple : Triple inv x (fun _ => inv) fun e s => inv s ∧ allowed e) (start : inv s) :
    inv (Trapping.final x s) ∧ ∀ e, trapOf x s = some e → allowed e := by
  have outcome := triple s start
  unfold Trapping.final trapOf
  cases ran : x.run s with
  | ok value s' =>
    rw [ran] at outcome
    exact ⟨outcome, by simp⟩
  | error e s' =>
    rw [ran] at outcome
    exact ⟨outcome.1, by rintro _ ⟨⟩; exact outcome.2⟩

end Rules

def runAll (op : ι → EStateM ε σ Unit) : List ι → EStateM ε σ Unit
  | [] => pure ()
  | i :: is => do
    op i
    runAll op is

variable {op : ι → EStateM ε σ Unit}

@[simp] theorem runAll_nil (s : σ) : (runAll op []).run s = .ok () s := rfl

theorem runAll_cons (i : ι) (is : List ι) (s : σ) :
    (runAll op (i :: is)).run s = match (op i).run s with
      | .ok _ s' => (runAll op is).run s'
      | .error e s' => .error e s' := by
  rw [runAll, EStateM.run_bind]
  cases (op i).run s <;> rfl

theorem final_runAll_cons {i : ι} {is : List ι} {s s' : σ} (first : (op i).run s = .ok () s') :
    final (runAll op (i :: is)) s = final (runAll op is) s' := by
  simp only [final, runAll_cons, first]

theorem runAll_cons_ok {i : ι} {is : List ι} {s s' : σ} :
    (runAll op (i :: is)).run s = .ok () s' ↔
      ∃ middle, (op i).run s = .ok () middle ∧ (runAll op is).run middle = .ok () s' := by
  rw [runAll_cons]
  cases (op i).run s with
  | ok _ next => simp
  | error e next => simp

theorem runAll_append (is js : List ι) (s : σ) :
    (runAll op (is ++ js)).run s = match (runAll op is).run s with
      | .ok _ s' => (runAll op js).run s'
      | .error e s' => .error e s' := by
  induction is generalizing s with
  | nil => rfl
  | cons i is ih =>
    rw [List.cons_append, runAll_cons, runAll_cons]
    cases (op i).run s with
    | ok _ next => exact ih next
    | error e next => rfl

theorem runAll_append_ok {is js : List ι} {s s' : σ} :
    (runAll op (is ++ js)).run s = .ok () s' ↔
      ∃ middle, (runAll op is).run s = .ok () middle ∧ (runAll op js).run middle = .ok () s' := by
  rw [runAll_append]
  cases (runAll op is).run s with
  | ok _ next => simp
  | error e next => simp

/-- The predicate holds of each command of a list and the state it meets, up to the first trap. -/
def Along (op : ι → EStateM ε σ Unit) (P : σ → ι → Prop) : List ι → σ → Prop
  | [], _ => True
  | i :: is, s => P s i ∧ ∀ s', (op i).run s = .ok () s' → Along op P is s'

theorem Along.single {P : σ → ι → Prop} {i : ι} {s : σ} (here : P s i) : Along op P [i] s :=
  ⟨here, fun _ _ => trivial⟩

theorem Along.cons {P : σ → ι → Prop} {i : ι} {is : List ι} {s s' : σ} (here : P s i)
    (ran : (op i).run s = .ok () s') (rest : Along op P is s') : Along op P (i :: is) s := by
  refine ⟨here, fun other ran' => ?_⟩
  rw [ran] at ran'
  cases ran'
  exact rest

theorem Along.tail {P : σ → ι → Prop} {i : ι} {is : List ι} {s s' : σ} (along : Along op P (i :: is) s)
    (ran : (op i).run s = .ok () s') : Along op P is s' := along.2 s' ran

theorem Along.cons_final {P : σ → ι → Prop} {i : ι} {is : List ι} {s : σ} (here : P s i)
    (rest : Along op P is (final (op i) s)) : Along op P (i :: is) s := by
  refine ⟨here, fun s' ran => ?_⟩
  simpa only [final, ran] using rest

theorem Along.of_append {P : σ → ι → Prop} {is js : List ι} {s : σ} (along : Along op P (is ++ js) s) :
    Along op P is s := by
  induction is generalizing s with
  | nil => trivial
  | cons i is ih => exact ⟨along.1, fun s' ran => ih (along.2 s' ran)⟩

theorem Along.keeps {P : σ → ι → Prop} {inv : σ → Prop}
    (step : ∀ s i s', inv s → P s i → (op i).run s = .ok () s' → inv s') {is : List ι} {s s' : σ}
    (along : Along op P is s) (start : inv s) (ran : (runAll op is).run s = .ok () s') : inv s' := by
  induction is generalizing s with
  | nil =>
    cases ran
    exact start
  | cons i is ih =>
    obtain ⟨middle, first, rest⟩ := runAll_cons_ok.mp ran
    exact ih (along.tail first) (step s i middle start along.1 first) rest

theorem along_iff_reached {P : σ → ι → Prop} {is : List ι} {s : σ} : Along op P is s ↔
    ∀ before i after middle, is = before ++ i :: after → (runAll op before).run s = .ok () middle → P middle i := by
  induction is generalizing s with
  | nil =>
    refine ⟨fun _ before i after middle shape => ?_, fun _ => trivial⟩
    simp at shape
  | cons i is ih =>
    constructor
    · intro along before j after middle shape ran
      cases before with
      | nil =>
        cases shape
        cases ran
        exact along.1
      | cons k before =>
        cases shape
        obtain ⟨next, first, rest⟩ := runAll_cons_ok.mp ran
        exact ih.mp (along.tail first) before j after middle rfl rest
    · intro reached
      refine ⟨reached [] i is s rfl rfl, fun next first => ih.mpr ?_⟩
      intro before j after middle shape ran
      rw [shape] at reached
      exact reached (i :: before) j after middle rfl (runAll_cons_ok.mpr ⟨next, first, ran⟩)

theorem Along.congr {P Q : σ → ι → Prop} {inv : σ → Prop} (same : ∀ s i, inv s → (P s i ↔ Q s i))
    (kept : ∀ s i s', inv s → (op i).run s = .ok () s' → inv s') {is : List ι} {s : σ} (start : inv s) :
    Along op P is s ↔ Along op Q is s := by
  induction is generalizing s with
  | nil => exact Iff.rfl
  | cons i is ih =>
    refine and_congr (same s i start) (forall_congr' fun s' => imp_congr_right fun ran => ?_)
    exact ih (kept s i s' start ran)

theorem Triple.runAll {inv : σ → Prop} {trap : ε → σ → Prop} {is : List ι}
    (each : ∀ i ∈ is, Triple inv (op i) (fun _ => inv) trap) :
    Triple inv (Trapping.runAll op is) (fun _ => inv) trap := by
  induction is with
  | nil => exact fun s start => start
  | cons i is ih =>
    have head := each i (by simp)
    have tail := ih fun j member => each j (by simp [member])
    exact Triple.bind head fun _ => tail

end Trapping
