/-!
Outcomes of computations that carry a state and may fail. `bind_eq_ok` opens a sequence that
succeeds into its two steps. `Yields x P` says that whatever `x` results in satisfies `P`, from any
state; a computation that fails results in nothing. `Runs x s Q E` is about one start and about both
ends: from the state `s`, the computation `x` results in something that satisfies `Q` together with
the state that it leaves, or it fails with a problem that satisfies `E`. `Succeeds x P` says that
`x` never fails, `Steady x` that its result is the same from all states, and `Fails x E` that
whatever it fails with satisfies `E`.

Two more are about two computations. `Echoes R x y` says that `x` is steady, and that where it comes
to a result, `y` comes to one that stands in the relation `R` to it. `Mirrors f P x y` says that `y`
does what `x` does, but for a change `f` of the result.
-/

set_option autoImplicit false
set_option relaxedAutoImplicit false

namespace AsciidocSpans

variable {ε σ α β : Type} {x : EStateM ε σ α} {f : α → EStateM ε σ β} {P : β → Prop}

/-- Behind a first step that comes to a result, a sequence goes on with it. -/
theorem bind_of_eq_ok {s middle : σ} {value : α} (h : x s = .ok value middle) :
    (x >>= f) s = f value middle := by
  change EStateM.bind x f s = _
  rw [EStateM.bind, h]

/-- A sequence fails with its first step. -/
theorem bind_of_eq_error {s middle : σ} {problem : ε} (h : x s = .error problem middle) :
    (x >>= f) s = .error problem middle := by
  change EStateM.bind x f s = _
  rw [EStateM.bind, h]

/-- A sequence that succeeds: its first step does, and then the second one from what that left. -/
theorem bind_eq_ok {s s' : σ} {result : β} :
    (x >>= f) s = .ok result s' ↔
      ∃ value middle, x s = .ok value middle ∧ f value middle = .ok result s' := by
  change EStateM.bind x f s = _ ↔ _
  rw [EStateM.bind]
  cases x s with
  | ok value middle =>
    refine ⟨fun h ↦ ⟨value, middle, rfl, h⟩, ?_⟩
    rintro ⟨_, _, heq, h⟩
    cases heq
    exact h
  | error problem middle =>
    constructor
    · intro h
      cases h
    · rintro ⟨_, _, h, -⟩
      cases h

/-- Every result of a computation satisfies `P`. -/
def Yields (x : EStateM ε σ β) (P : β → Prop) : Prop :=
  ∀ s result s', x s = .ok result s' → P result

theorem yields_pure {value : β} (h : P value) : Yields (pure value : EStateM ε σ β) P := by
  intro s result s' heq
  cases heq
  exact h

theorem yields_throw (problem : ε) : Yields (throw problem : EStateM ε σ β) P := by
  intro s result s' heq
  cases heq

theorem yields_trivial (x : EStateM ε σ β) : Yields x fun _ ↦ True :=
  fun _ _ _ _ ↦ trivial

theorem Yields.bind {Q : α → Prop} (hx : Yields x Q) (hf : ∀ value, Q value → Yields (f value) P) :
    Yields (x >>= f) P := by
  intro s result s' h
  obtain ⟨value, middle, hvalue, hresult⟩ := bind_eq_ok.mp h
  exact hf value (hx s value middle hvalue) middle result s' hresult

/-- From some state, a computation comes to a result. -/
def CameTo (x : EStateM ε σ β) (result : β) : Prop :=
  ∃ s s', x s = .ok result s'

/-- Every result of a computation is one that it came to. -/
theorem yields_cameTo (x : EStateM ε σ β) : Yields x (CameTo x) :=
  fun s _ s' heq ↦ ⟨s, s', heq⟩

theorem Yields.and {y : EStateM ε σ β} {Q : β → Prop} (hP : Yields y P) (hQ : Yields y Q) :
    Yields y fun result ↦ P result ∧ Q result :=
  fun s result s' heq ↦ ⟨hP s result s' heq, hQ s result s' heq⟩

/-- From a state, a computation comes to a result that satisfies `Q` with the state that it leaves,
or it fails with a problem that satisfies `E`. -/
def Runs (x : EStateM ε σ β) (s : σ) (Q : β → σ → Prop) (E : ε → Prop) : Prop :=
  match x s with
  | .ok result s' => Q result s'
  | .error problem _ => E problem

section Runs

variable {s : σ} {Q : β → σ → Prop} {E : ε → Prop} {y : EStateM ε σ β}

theorem runs_pure {value : β} (h : Q value s) : Runs (pure value : EStateM ε σ β) s Q E :=
  h

theorem runs_throw {problem : ε} (h : E problem) :
    Runs (throw problem : EStateM ε σ β) s Q E :=
  h

theorem Runs.bind {R : α → σ → Prop} (hx : Runs x s R E)
    (hf : ∀ value middle, R value middle → Runs (f value) middle Q E) :
    Runs (x >>= f) s Q E := by
  change match EStateM.bind x f s with
    | .ok result s' => Q result s'
    | .error problem _ => E problem
  rw [Runs] at hx
  rw [EStateM.bind]
  cases hrun : x s with
  | ok value middle =>
    rw [hrun] at hx
    exact hf value middle hx
  | error problem middle =>
    rw [hrun] at hx
    exact hx

theorem Runs.mono {R : β → σ → Prop} {F : ε → Prop} (h : Runs y s R F)
    (hresult : ∀ value s', R value s' → Q value s') (hproblem : ∀ problem, F problem → E problem) :
    Runs y s Q E := by
  rw [Runs] at h ⊢
  cases hrun : y s with
  | ok value s' =>
    rw [hrun] at h
    exact hresult value s' h
  | error problem s' =>
    rw [hrun] at h
    exact hproblem problem h

/-- Behind a computation that has a known outcome, the rest goes on from there. -/
theorem Runs.bind_of_eq {value : α} {middle : σ} (hx : x s = .ok value middle)
    (hf : Runs (f value) middle Q E) : Runs (x >>= f) s Q E := by
  have hrun : Runs x s (fun result s' ↦ result = value ∧ s' = middle) E := by
    rw [Runs, hx]
    exact ⟨rfl, rfl⟩
  refine hrun.bind fun result s' heq ↦ ?_
  obtain ⟨rfl, rfl⟩ := heq
  exact hf

/-- What every item's computation keeps, the computations of all items keep. -/
theorem Runs.mapM {I : σ → Prop} {g : α → EStateM ε σ β} (items : List α)
    (h : ∀ item ∈ items, ∀ s, I s → Runs (g item) s (fun _ s' ↦ I s') E) (hs : I s) :
    Runs (items.mapM g) s (fun _ s' ↦ I s') E := by
  induction items generalizing s with
  | nil => exact runs_pure hs
  | cons item rest ih =>
    rw [List.mapM_cons]
    refine (h item List.mem_cons_self s hs).bind fun _ middle hmiddle ↦ ?_
    exact (ih (fun other hother ↦ h other (List.mem_cons_of_mem _ hother)) hmiddle).bind
      fun _ _ hfinal ↦ runs_pure hfinal

/-- The result of a run is the one that the computation comes to. -/
theorem Runs.and_run (h : Runs y s Q E) :
    Runs y s (fun result s' ↦ Q result s' ∧ y s = .ok result s') E := by
  rw [Runs] at h ⊢
  cases hrun : y s with
  | ok result s' =>
    rw [hrun] at h
    exact ⟨h, rfl⟩
  | error problem s' =>
    rw [hrun] at h
    exact h

/-- What is known of a run holds of the result that it came to. -/
theorem Runs.of_eq_ok {result : β} {s' : σ} (h : Runs y s Q E) (heq : y s = .ok result s') :
    Q result s' := by
  rw [Runs, heq] at h
  exact h

end Runs

/-- From any state, a computation comes to a result, and the result satisfies `P`. -/
def Succeeds (x : EStateM ε σ β) (P : β → Prop) : Prop :=
  ∀ s, ∃ result s', x s = .ok result s' ∧ P result

section Succeeds

theorem succeeds_pure {value : β} (h : P value) : Succeeds (pure value : EStateM ε σ β) P :=
  fun s ↦ ⟨value, s, rfl, h⟩

theorem Succeeds.bind {Q : α → Prop} (hx : Succeeds x Q)
    (hf : ∀ value, Q value → Succeeds (f value) P) : Succeeds (x >>= f) P := by
  intro s
  obtain ⟨value, middle, hvalue, hQ⟩ := hx s
  obtain ⟨result, s', hresult, hP⟩ := hf value hQ middle
  exact ⟨result, s', bind_eq_ok.mpr ⟨value, middle, hvalue, hresult⟩, hP⟩

theorem Succeeds.mono {y : EStateM ε σ β} {Q : β → Prop} (h : Succeeds y Q)
    (himp : ∀ value, Q value → P value) : Succeeds y P := by
  intro s
  obtain ⟨result, s', hrun, hQ⟩ := h s
  exact ⟨result, s', hrun, himp result hQ⟩

theorem Succeeds.and {y : EStateM ε σ β} {Q : β → Prop} (h : Succeeds y P) (hQ : Yields y Q) :
    Succeeds y fun result ↦ P result ∧ Q result := by
  intro s
  obtain ⟨result, s', hrun, hP⟩ := h s
  exact ⟨result, s', hrun, hP, hQ s result s' hrun⟩

end Succeeds

/-- Whatever a computation fails with, from any state, satisfies `E`. -/
def Fails (x : EStateM ε σ β) (E : ε → Prop) : Prop :=
  ∀ s problem s', x s = .error problem s' → E problem

/-- What a computation comes to from one state, it comes to from every state. -/
def Steady (x : EStateM ε σ α) : Prop :=
  Yields x fun result ↦ Succeeds x (· = result)

section Steady

theorem steady_pure (value : α) : Steady (pure value : EStateM ε σ α) :=
  yields_pure (succeeds_pure rfl)

theorem steady_throw (problem : ε) : Steady (throw problem : EStateM ε σ α) :=
  yields_throw problem

theorem Steady.bind {Q : α → Prop} (hx : Steady x) (hresult : Yields x Q)
    (hf : ∀ value, Q value → Steady (f value)) : Steady (x >>= f) := by
  intro s result s' h
  obtain ⟨value, middle, hvalue, hbehind⟩ := bind_eq_ok.mp h
  refine (hx s value middle hvalue).bind fun same heq ↦ ?_
  subst heq
  exact hf same (hresult s same middle hvalue) middle result s' hbehind

end Steady

section Echoes

variable {γ δ : Type} {R : α → γ → Prop} {S : β → δ → Prop} {y : EStateM ε σ γ}
  {g : γ → EStateM ε σ δ}

/-- Whatever one computation comes to, from any state, it comes to from every state, and then the
other one comes to something that stands in a relation to it, from every state. -/
def Echoes (R : α → γ → Prop) (x : EStateM ε σ α) (y : EStateM ε σ γ) : Prop :=
  Yields x fun result ↦ Succeeds x (· = result) ∧ Succeeds y (R result)

theorem echoes_pure {value : α} {other : γ} (h : R value other) :
    Echoes R (pure value : EStateM ε σ α) (pure other) :=
  yields_pure ⟨succeeds_pure rfl, succeeds_pure h⟩

/-- What fails comes to nothing that there is to echo. -/
theorem echoes_throw (problem : ε) : Echoes R (throw problem : EStateM ε σ α) y :=
  yields_throw problem

/-- A steady computation echoes itself. -/
theorem Steady.echoes (hx : Steady x) {Q : α → Prop} (hresult : Yields x Q) :
    Echoes (fun value other ↦ value = other ∧ Q other) x x := by
  intro s result s' h
  have hsteady := hx s result s' h
  exact ⟨hsteady, (hsteady.and hresult).mono fun _ hother ↦ ⟨hother.1.symm, hother.2⟩⟩

/-- A computation that does not fail echoes a steady one, if all results of the one stand in the
relation to all results of the other. -/
theorem Steady.echoes_of_yields (hx : Steady x) {P : α → Prop} {Q : γ → Prop} (hP : Yields x P)
    (hy : Fails y fun _ ↦ False) (hQ : Yields y Q)
    (hR : ∀ value other, P value → Q other → R value other) : Echoes R x y := by
  intro s result s' h
  refine ⟨hx s result s' h, fun t ↦ ?_⟩
  cases hrun : y t with
  | ok other t' => exact ⟨other, t', rfl, hR result other (hP s result s' h) (hQ t other t' hrun)⟩
  | error problem t' => exact (hy t problem t' hrun).elim

theorem Echoes.bind (hx : Echoes R x y)
    (hf : ∀ value other, Succeeds x (· = value) → R value other →
      Echoes S (f value) (g other)) : Echoes S (x >>= f) (y >>= g) := by
  intro s result s' h
  obtain ⟨value, middle, hvalue, hresult⟩ := bind_eq_ok.mp h
  obtain ⟨hsteady, hother⟩ := hx s value middle hvalue
  constructor
  · obtain ⟨other, -, -, hR⟩ := hother s
    refine hsteady.bind fun same heq ↦ ?_
    subst heq
    exact (hf same other hsteady hR middle result s' hresult).1
  · exact hother.bind fun other hR ↦ (hf value other hsteady hR middle result s' hresult).2

theorem Echoes.mono {R' : α → γ → Prop} (h : Echoes R x y)
    (himp : ∀ value other, R value other → R' value other) : Echoes R' x y :=
  fun s result s' hrun ↦
    ⟨(h s result s' hrun).1, (h s result s' hrun).2.mono (himp result)⟩

/-- The results that an echo comes to satisfy what all results do. -/
theorem Echoes.and {Q : γ → Prop} (h : Echoes R x y) (hy : Yields y Q) :
    Echoes (fun value other ↦ R value other ∧ Q other) x y :=
  fun s result s' hrun ↦ ⟨(h s result s' hrun).1, (h s result s' hrun).2.and hy⟩

/-- Where a computation does not fail, neither does one that echoes it. -/
theorem Echoes.succeeds (h : Echoes R x y) (hx : Fails x fun _ ↦ False) :
    Succeeds x fun value ↦ Succeeds y (R value) := by
  intro s
  cases hrun : x s with
  | ok value s' => exact ⟨value, s', rfl, (h s value s' hrun).2⟩
  | error problem s' => exact (hx s problem s' hrun).elim

end Echoes

section Fails

variable {E : ε → Prop}

theorem fails_pure (value : β) : Fails (pure value : EStateM ε σ β) E := by
  intro s problem s' h
  cases h

/-- A computation that always comes to a result fails with nothing. -/
theorem Succeeds.fails {y : EStateM ε σ β} (h : Succeeds y P) : Fails y E := by
  intro s problem s' heq
  obtain ⟨result, final, hrun, -⟩ := h s
  rw [heq] at hrun
  cases hrun

/-- A sequence fails where its first step does, or the second one on a result of the first. -/
theorem Fails.bind {Q : α → Prop} (hx : Fails x E) (hresult : Yields x Q)
    (hf : ∀ value, Q value → Fails (f value) E) : Fails (x >>= f) E := by
  intro s problem s' h
  change EStateM.bind x f s = _ at h
  rw [EStateM.bind] at h
  cases hrun : x s with
  | ok value middle =>
    rw [hrun] at h
    exact hf value (hresult s value middle hrun) middle problem s' h
  | error other middle =>
    rw [hrun] at h
    cases h
    exact hx s problem s' hrun

end Fails

/-- From any state, one computation does what another one does: it comes to the result of the other
one, changed by a function, with the same state, or it fails with the same problem and the same
state. What the other one results in satisfies `P`. -/
def Mirrors {γ : Type} (change : α → γ) (P : α → Prop) (x : EStateM ε σ α) (y : EStateM ε σ γ) :
    Prop :=
  ∀ s, match x s with
    | .ok result s' => y s = .ok (change result) s' ∧ P result
    | .error problem s' => y s = .error problem s'

section Mirrors

variable {γ δ : Type} {change : α → γ} {further : β → δ} {Q : α → Prop} {y : EStateM ε σ γ}
  {g : γ → EStateM ε σ δ}

theorem mirrors_pure {value : α} (h : Q value) :
    Mirrors change Q (pure value : EStateM ε σ α) (pure (change value)) :=
  fun _ ↦ ⟨rfl, h⟩

theorem mirrors_throw (problem : ε) :
    Mirrors change Q (throw problem : EStateM ε σ α) (throw problem) :=
  fun _ ↦ rfl

/-- A computation does what it does. -/
theorem Yields.mirrors (h : Yields x Q) : Mirrors id Q x x := by
  intro s
  cases hrun : x s with
  | ok result s' => exact ⟨rfl, h s result s' hrun⟩
  | error problem s' => rfl

theorem Mirrors.bind (hx : Mirrors change Q x y)
    (hf : ∀ value, Q value → Mirrors further P (f value) (g (change value))) :
    Mirrors further P (x >>= f) (y >>= g) := by
  intro s
  have hs := hx s
  cases hrun : x s with
  | ok value middle =>
    rw [hrun] at hs
    rw [bind_of_eq_ok hrun, bind_of_eq_ok hs.1]
    exact hf value hs.2 middle
  | error problem middle =>
    rw [hrun] at hs
    rw [bind_of_eq_error hrun]
    exact bind_of_eq_error hs

end Mirrors

/-- Whether a result that was come to passes a test. -/
def okAnd (outcome : Except ε α) (test : α → Bool) : Bool :=
  match outcome with
  | .ok result => test result
  | .error _ => false

theorem exists_of_okAnd {outcome : Except ε α} {test : α → Bool} (h : okAnd outcome test = true) :
    ∃ result, outcome = .ok result ∧ test result = true := by
  cases outcome with
  | ok result => exact ⟨result, rfl, h⟩
  | error problem => cases h

end AsciidocSpans
