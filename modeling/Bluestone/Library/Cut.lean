/-
# `Bluestone.Library.Cut` — programs that a crash may cut short

A `Program` runs from a state, passes through others, and ends with a result or
an error.  A crash finds it in the state it started from or in one it passed
through (`crashes`); its own end is the last of these.

`Triple P m Q X K` is a rule of pre- and postconditions with a condition for
crashes: from a state with `P` the program passes only through states with `K`
and ends with `Q` if it succeeds, with `X` if it fails.  There is one rule for
each way to build a program.

`Simulates R m m'` compares two programs step by step: from related states they
pass through related states and return the same, and so a crash finds the same in
both.  `Blind` is this for one program and a change that it does not see.
-/
import Mathlib.Data.List.Forall2

namespace Cuts

universe u v w

/-- How a run went: the states it passed through, oldest first, the state it
ended in, and its result. -/
structure Outcome (S : Type u) (E : Type v) (A : Type w) where
  passed : List S
  final : S
  result : Except E A

/-- A program over states `S` with errors `E`. -/
def Program (S : Type u) (E : Type v) (A : Type w) := S → Outcome S E A

namespace Program

variable {S : Type u} {E : Type v} {A B : Type w}

/-- Nothing happens and `a` is returned. -/
def done (a : A) : Program S E A := fun s => ⟨[], s, .ok a⟩

/-- Nothing happens and the program fails. -/
def fail (e : E) : Program S E A := fun s => ⟨[], s, .error e⟩

/-- One step that a crash cannot divide. -/
def step (f : S → S) : Program S E PUnit := fun s => ⟨[f s], f s, .ok ⟨⟩⟩

/-- The state is read and the program goes on from what it says. -/
def read (k : S → Program S E A) : Program S E A := fun s => k s s

/-- `m` and then, unless it failed, what its result asks for. -/
def andThen (m : Program S E A) (k : A → Program S E B) : Program S E B := fun s =>
  match (m s).result with
  | .error e => ⟨(m s).passed, (m s).final, .error e⟩
  | .ok a =>
    ⟨(m s).passed ++ (k a (m s).final).passed, (k a (m s).final).final, (k a (m s).final).result⟩

/-- `m` with its failure as a result. -/
def attempt {E' : Type v} (m : Program S E A) : Program S E' (Except E A) := fun s =>
  ⟨(m s).passed, (m s).final, .ok (m s).result⟩

/-- The states a crash may find. -/
def crashes (m : Program S E A) (s : S) : List S := s :: (m s).passed

end Program

instance {S : Type u} {E : Type v} : Monad (Program S E) where
  pure := Program.done
  bind := Program.andThen

theorem bind_of_error {S : Type u} {E : Type v} {A B : Type w} {m : Program S E A}
    {k : A → Program S E B} {s : S} {e : E} (h : (m s).result = .error e) :
    (m >>= k) s = ⟨(m s).passed, (m s).final, .error e⟩ := by
  simp [bind, Program.andThen, h]

theorem bind_of_ok {S : Type u} {E : Type v} {A B : Type w} {m : Program S E A} {k : A → Program S E B}
    {s : S} {a : A} (h : (m s).result = .ok a) :
    (m >>= k) s = ⟨(m s).passed ++ (k a (m s).final).passed, (k a (m s).final).final,
    (k a (m s).final).result⟩ := by
  simp [bind, Program.andThen, h]

/-! ## Pre-, postconditions and crashes -/

section
variable {S : Type u} {E : Type v} {A B : Type w}

/-- The run ended well with `Q`, or failed with `X`. -/
def Outcome.Ends (o : Outcome S E A) (Q : A → S → Prop) (X : E → S → Prop) : Prop :=
  match o.result with
  | .ok a => Q a o.final
  | .error e => X e o.final

/-- From `P` the program passes through `K` only, and ends with `Q` or `X`. -/
def Triple (P : S → Prop) (m : Program S E A) (Q : A → S → Prop) (X : E → S → Prop)
    (K : S → Prop) : Prop :=
  ∀ s, P s → (∀ s' ∈ m.crashes s, K s') ∧ (m s).Ends Q X

variable {P P' : S → Prop} {Q Q' : A → S → Prop} {R : B → S → Prop} {X X' : E → S → Prop}
  {K : S → Prop} {m : Program S E A}

theorem Triple.done {a : A} (h : ∀ s, P s → K s ∧ Q a s) : Triple P (Program.done a) Q X K := by
  intro s hs
  refine ⟨?_, (h s hs).2⟩
  intro s' hs'
  obtain rfl : s' = s := by simpa [Program.crashes, Program.done] using hs'
  exact (h _ hs).1

theorem Triple.fail {e : E} (h : ∀ s, P s → K s ∧ X e s) :
    Triple P (Program.fail e : Program S E A) Q X K := by
  intro s hs
  refine ⟨?_, (h s hs).2⟩
  intro s' hs'
  obtain rfl : s' = s := by simpa [Program.crashes, Program.fail] using hs'
  exact (h _ hs).1

theorem Triple.step {f : S → S} {Q : PUnit → S → Prop} (h : ∀ s, P s → K s ∧ K (f s) ∧ Q ⟨⟩ (f s)) :
    Triple P (Program.step f) Q X K := by
  intro s hs
  refine ⟨?_, (h s hs).2.2⟩
  intro s' hs'
  rcases List.mem_cons.1 hs' with rfl | hf
  · exact (h _ hs).1
  · obtain rfl : s' = f s := List.mem_singleton.1 hf
    exact (h s hs).2.1

theorem Triple.read {k : S → Program S E A}
    (h : ∀ s, P s → Triple (fun s' => s' = s) (k s) Q X K) : Triple P (Program.read k) Q X K := by
  intro s hs
  exact h s hs s rfl

/-- One program after another: what the first ends with is where the second
starts. -/
theorem Triple.bind {k : A → Program S E B} (hm : Triple P m Q X K)
    (hk : ∀ a, Triple (Q a) (k a) R X K) : Triple P (m >>= k) R X K := by
  intro s hs
  obtain ⟨hcrash, hend⟩ := hm s hs
  cases hres : (m s).result with
  | error e =>
    rw [Program.crashes, bind_of_error hres]
    rw [Outcome.Ends, hres] at hend
    exact ⟨hcrash, hend⟩
  | ok a =>
    rw [Outcome.Ends, hres] at hend
    obtain ⟨hcrash', hend'⟩ := hk a _ hend
    rw [Program.crashes, bind_of_ok hres]
    refine ⟨?_, hend'⟩
    intro s' hs'
    rcases List.mem_cons.1 hs' with rfl | happ
    · exact hcrash _ List.mem_cons_self
    · rcases List.mem_append.1 happ with hfst | hsnd
      · exact hcrash s' (List.mem_cons_of_mem _ hfst)
      · exact hcrash' s' (List.mem_cons_of_mem _ hsnd)

theorem Triple.attempt {E' : Type v} {X' : E' → S → Prop} (hm : Triple P m Q X K) : Triple P m.attempt
      (fun r s => match r with | .ok a => Q a s | .error e => X e s) X' K := by
  intro s hs
  exact hm s hs

theorem Triple.assume {F : Prop} (hF : ∀ s, P s → F) (hm : F → Triple P m Q X K) : Triple P m Q X K := by
  intro s hs
  exact hm (hF s hs) s hs

theorem Triple.conseq (hm : Triple P m Q X K) (hP : ∀ s, P' s → P s)
    (hQ : ∀ a s, Q a s → Q' a s) (hX : ∀ e s, X e s → X' e s) : Triple P' m Q' X' K := by
  intro s hs
  obtain ⟨hcrash, hend⟩ := hm s (hP s hs)
  refine ⟨hcrash, ?_⟩
  rw [Outcome.Ends] at hend ⊢
  cases hres : (m s).result with
  | error e =>
    rw [hres] at hend
    exact hX e _ hend
  | ok a =>
    rw [hres] at hend
    exact hQ a _ hend

theorem Triple.anything : Triple P m (fun _ _ => True) (fun _ _ => True) (fun _ => True) := by
  intro s _
  refine ⟨fun _ _ => trivial, ?_⟩
  rw [Outcome.Ends]
  split <;> trivial

theorem Triple.at (hm : Triple P m Q X K) {s : S} (hs : P s) : Triple (fun s' => s' = s) m Q X K := by
  refine hm.conseq ?_ (fun _ _ h => h) fun _ _ h => h
  rintro s' rfl
  exact hs

theorem Triple.of_ok (hm : Triple P m Q X K) {s : S} {a : A} (hs : P s) (hres : (m s).result = .ok a) :
    Q a (m s).final := by
  have hend := (hm s hs).2
  rw [Outcome.Ends, hres] at hend
  exact hend

theorem Triple.of_error (hm : Triple P m Q X K) {s : S} {e : E} (hs : P s)
    (hres : (m s).result = .error e) : X e (m s).final := by
  have hend := (hm s hs).2
  rw [Outcome.Ends, hres] at hend
  exact hend

theorem Triple.final {Φ : S → Prop} (hm : Triple P m (fun _ => Φ) (fun _ => Φ) K) {s : S} (hs : P s) :
    Φ (m s).final := by
  have hend := (hm s hs).2
  rw [Outcome.Ends] at hend
  cases hres : (m s).result with
  | error e | ok a =>
    rw [hres] at hend
    exact hend

/-- The program keeps `Φ`, whether it fails or not. -/
def Preserves (Φ : S → Prop) (m : Program S E A) : Prop :=
  Triple Φ m (fun _ => Φ) (fun _ => Φ) (fun _ => True)

section
variable {Φ : S → Prop}

theorem Preserves.done {a : A} : Preserves Φ (Program.done a : Program S E A) :=
  Triple.done fun _ h => ⟨trivial, h⟩

theorem Preserves.fail {e : E} : Preserves Φ (Program.fail e : Program S E A) :=
  Triple.fail fun _ h => ⟨trivial, h⟩

theorem Preserves.step {f : S → S} (h : ∀ s, Φ s → Φ (f s)) :
    Preserves Φ (Program.step f : Program S E PUnit) :=
  Triple.step fun s hs => ⟨trivial, trivial, h s hs⟩

theorem Preserves.read {k : S → Program S E A} (h : ∀ s, Φ s → Preserves Φ (k s)) :
    Preserves Φ (Program.read k) :=
  Triple.read fun s hs => Triple.at (h s hs) hs

theorem Preserves.bind {k : A → Program S E B} (hm : Preserves Φ m) (hk : ∀ a, Preserves Φ (k a)) :
    Preserves Φ (m >>= k) :=
  Triple.bind hm hk

theorem Preserves.attempt {E' : Type v} (hm : Preserves Φ m) :
    Preserves Φ (m.attempt : Program S E' (Except E A)) := by
  refine Triple.conseq (Triple.attempt hm) (fun _ h => h) ?_ fun _ _ h => h
  rintro (_ | _) s h
  all_goals exact h

end

end

/-! ## Two programs in step -/

section
variable {S : Type u} {T : Type u} {E : Type v} {A B : Type w} {R : S → T → Prop}

/-- Two runs that agree state by state. -/
structure Outcome.Matches (R : S → T → Prop) (o : Outcome S E A) (o' : Outcome T E A) : Prop where
  passed : List.Forall₂ R o.passed o'.passed
  final : R o.final o'.final
  result : o.result = o'.result

/-- From related states the two programs run in step. -/
def Simulates (R : S → T → Prop) (m : Program S E A) (m' : Program T E A) : Prop :=
  ∀ s t, R s t → Outcome.Matches R (m s) (m' t)

variable {m : Program S E A} {m' : Program T E A}

theorem Simulates.done {a : A} :
    Simulates R (Program.done a : Program S E A) (Program.done a : Program T E A) := by
  intro s t hst
  exact ⟨.nil, hst, rfl⟩

theorem Simulates.fail {e : E} :
    Simulates R (Program.fail e : Program S E A) (Program.fail e : Program T E A) := by
  intro s t hst
  exact ⟨.nil, hst, rfl⟩

theorem Simulates.step {f : S → S} {f' : T → T} (h : ∀ s t, R s t → R (f s) (f' t)) :
    Simulates R (Program.step f : Program S E PUnit) (Program.step f' : Program T E PUnit) := by
  intro s t hst
  exact ⟨.cons (h s t hst) .nil, h s t hst, rfl⟩

theorem Simulates.read {k : S → Program S E A} {k' : T → Program T E A} (h : ∀ s t, R s t →
    Outcome.Matches R (k s s) (k' t t)) : Simulates R (Program.read k) (Program.read k') :=
  h

theorem Simulates.bind_of {k : A → Program S E B} {k' : A → Program T E B} {Q : A → Prop}
    (hm : Simulates R m m') (hQ : ∀ s a, (m s).result = .ok a → Q a)
    (hk : ∀ a, Q a → Simulates R (k a) (k' a)) : Simulates R (m >>= k) (m' >>= k') := by
  intro s t hst
  obtain ⟨hpassed, hfinal, hresult⟩ := hm s t hst
  cases hres : (m s).result with
  | error e =>
    rw [bind_of_error hres, bind_of_error (hresult.symm.trans hres)]
    exact ⟨hpassed, hfinal, rfl⟩
  | ok a =>
    rw [bind_of_ok hres, bind_of_ok (hresult.symm.trans hres)]
    obtain ⟨hpassed', hfinal', hresult'⟩ := hk a (hQ s a hres) _ _ hfinal
    exact ⟨List.rel_append hpassed hpassed', hfinal', hresult'⟩

theorem Simulates.bind {k : A → Program S E B} {k' : A → Program T E B} (hm : Simulates R m m')
    (hk : ∀ a, Simulates R (k a) (k' a)) : Simulates R (m >>= k) (m' >>= k') :=
  hm.bind_of (fun _ _ _ => trivial) fun a (_ : True) => hk a

theorem Simulates.attempt {E' : Type v} (hm : Simulates R m m') :
    Simulates R (m.attempt : Program S E' (Except E A)) (m'.attempt : Program T E' (Except E A)) := by
  intro s t hst
  obtain ⟨hpassed, hfinal, hresult⟩ := hm s t hst
  exact ⟨hpassed, hfinal, congrArg _ hresult⟩

theorem Simulates.ite {c : Prop} [Decidable c] {n : Program S E A} {n' : Program T E A}
    (hm : c → Simulates R m m') (hn : ¬ c → Simulates R n n') :
    Simulates R (if c then m else n) (if c then m' else n') := by
  by_cases hc : c
  · rw [if_pos hc, if_pos hc]
    exact hm hc
  · rw [if_neg hc, if_neg hc]
    exact hn hc

theorem forall_mem_iff_of_forall₂ {p : S → Prop} {q : T → Prop} (h : ∀ s t, R s t → (p s ↔ q t))
    {l : List S} {l' : List T} (hl : List.Forall₂ R l l') : (∀ s ∈ l, p s) ↔ ∀ t ∈ l', q t := by
  induction hl with
  | nil => simp
  | cons hst _ ih => rw [List.forall_mem_cons, List.forall_mem_cons, h _ _ hst, ih]

end

/-! ## Programs that do not see a change -/

section
variable {S : Type u} {E : Type v} {A B : Type w} {I : S → Prop} {φ : S → S}

/-- Started after the change `φ` the program returns the same, and the states it
passes through are changed in the same way.  It keeps `I`. -/
def Blind (I : S → Prop) (φ : S → S) (m : Program S E A) : Prop :=
  Simulates (fun s t => I s ∧ t = φ s) m m

variable {m : Program S E A}

theorem Blind.done {a : A} : Blind I φ (Program.done a : Program S E A) := Simulates.done

theorem Blind.fail {e : E} : Blind I φ (Program.fail e : Program S E A) := Simulates.fail

theorem Blind.step {f : S → S} (hI : ∀ s, I s → I (f s)) (hφ : ∀ s, I s → f (φ s) = φ (f s)) :
    Blind I φ (Program.step f : Program S E PUnit) := by
  refine Simulates.step ?_
  rintro s _ ⟨hs, rfl⟩
  exact ⟨hI s hs, hφ s hs⟩

theorem Blind.read {k : S → Program S E A} (hk : ∀ s, I s → k (φ s) = k s)
    (h : ∀ s, I s → Blind I φ (k s)) : Blind I φ (Program.read k) := by
  rintro s _ ⟨hs, rfl⟩
  rw [Program.read, Program.read, hk s hs]
  exact h s hs s _ ⟨hs, rfl⟩

theorem Blind.bind {k : A → Program S E B} (hm : Blind I φ m) (hk : ∀ a, Blind I φ (k a)) :
    Blind I φ (m >>= k) :=
  Simulates.bind hm hk

theorem Blind.attempt {E' : Type v} (hm : Blind I φ m) : Blind I φ (m.attempt : Program S E' (Except E A)) :=
  Simulates.attempt hm

end

end Cuts
