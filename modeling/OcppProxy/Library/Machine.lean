import Mathlib.Data.List.Forall2
import Mathlib.Logic.Relation
import Mathlib.Tactic.Common

namespace OcppProxy

/-- A system that takes labelled steps; `none` where the label is not enabled. -/
abbrev Machine (σ ι : Type*) := σ → ι → Option σ

namespace Machine

variable {σ τ ι : Type*}

def run (m : Machine σ ι) : σ → List ι → Option σ
  | s, [] => some s
  | s, i :: is => (m s i).bind fun s' => run m s' is

@[simp] theorem run_nil (m : Machine σ ι) (s : σ) : m.run s [] = some s := rfl

theorem run_cons (m : Machine σ ι) (s t : σ) (i : ι) (is : List ι) :
    m.run s (i :: is) = some t ↔ ∃ s', m s i = some s' ∧ m.run s' is = some t :=
  Option.bind_eq_some_iff

theorem run_append (m : Machine σ ι) (s t : σ) (is js : List ι) :
    m.run s (is ++ js) = some t ↔ ∃ s', m.run s is = some s' ∧ m.run s' js = some t := by
  induction is generalizing s with
  | nil => simp
  | cons i is ih =>
    simp only [List.cons_append, run_cons, ih]
    constructor
    · rintro ⟨u, hu, v, hv, ht⟩
      exact ⟨v, ⟨u, hu, hv⟩, ht⟩
    · rintro ⟨v, ⟨u, hu, hv⟩, ht⟩
      exact ⟨u, hu, v, hv, ht⟩

theorem run_concat (m : Machine σ ι) (s : σ) (is : List ι) (i : ι) :
    m.run s (is ++ [i]) = (m.run s is).bind fun s' => m s' i := by
  induction is generalizing s with
  | nil => simp [run]
  | cons j is ih => simp only [List.cons_append, run, Option.bind_assoc, ih]

/-- Every step of the run meets `C` in the state it starts from. -/
def Meets (m : Machine σ ι) (C : σ → ι → Prop) : σ → List ι → Prop
  | _, [] => True
  | s, i :: is => C s i ∧ match m s i with
    | some s' => Meets m C s' is
    | none => True

instance Meets.decidable (m : Machine σ ι) (C : σ → ι → Prop) [∀ s i, Decidable (C s i)] :
    ∀ s is, Decidable (m.Meets C s is)
  | _, [] => inferInstanceAs (Decidable True)
  | s, i :: is =>
    have : Decidable (match m s i with
        | some s' => m.Meets C s' is
        | none => True) :=
      match m s i with
      | some s' => Meets.decidable m C s' is
      | none => inferInstanceAs (Decidable True)
    inferInstanceAs (Decidable (_ ∧ _))

theorem meets_cons {m : Machine σ ι} {C : σ → ι → Prop} {s s' : σ} {i : ι} {is : List ι}
    (h : m s i = some s') : m.Meets C s (i :: is) ↔ C s i ∧ m.Meets C s' is := by
  simp only [Meets, h]

theorem Meets.mono {m : Machine σ ι} {C D : σ → ι → Prop} (hCD : ∀ s i, C s i → D s i)
    {s : σ} {is : List ι} (h : m.Meets C s is) : m.Meets D s is := by
  induction is generalizing s with
  | nil => trivial
  | cons i is ih =>
    refine ⟨hCD s i h.1, ?_⟩
    have h2 := h.2
    cases hs : m s i with
    | none => trivial
    | some s' =>
      rw [hs] at h2
      exact ih h2

theorem meets_and {m : Machine σ ι} {C D : σ → ι → Prop} {s : σ} {is : List ι} :
    m.Meets (fun s i => C s i ∧ D s i) s is ↔ m.Meets C s is ∧ m.Meets D s is := by
  induction is generalizing s with
  | nil => exact ⟨fun _ => ⟨trivial, trivial⟩, fun _ => trivial⟩
  | cons i is ih =>
    simp only [Meets]
    cases m s i with
    | none => simp
    | some s' =>
      simp only [ih]
      tauto

/-- An invariant that a step keeps whenever the step meets `C` holds at the end of every run
whose steps all meet `C`. -/
theorem invariant_of_meets (m : Machine σ ι) {C : σ → ι → Prop} {P : σ → Prop}
    (hstep : ∀ s i s', C s i → m s i = some s' → P s → P s')
    {s t : σ} {is : List ι} (hrun : m.run s is = some t) (hC : m.Meets C s is) (hs : P s) :
    P t := by
  induction is generalizing s with
  | nil =>
    obtain rfl : s = t := by simpa using hrun
    exact hs
  | cons i is ih =>
    obtain ⟨s', hi, hrest⟩ := (run_cons m s t i is).mp hrun
    obtain ⟨hCi, hCis⟩ := (meets_cons hi).mp hC
    exact ih hrest hCis (hstep s i s' hCi hi hs)

theorem meets_true (m : Machine σ ι) (s : σ) (is : List ι) : m.Meets (fun _ _ => True) s is := by
  induction is generalizing s with
  | nil => trivial
  | cons i is ih =>
    refine ⟨trivial, ?_⟩
    cases m s i with
    | none => trivial
    | some s' => exact ih s'

/-- Conditions that agree wherever a third one holds are met by the same runs. -/
theorem Meets.congr {m : Machine σ ι} {C C' D : σ → ι → Prop} {s : σ} {is : List ι}
    (hD : m.Meets D s is) (h : ∀ s i, D s i → (C s i ↔ C' s i)) :
    m.Meets C s is ↔ m.Meets C' s is := by
  constructor
  · intro hC
    exact (meets_and.mpr ⟨hD, hC⟩).mono fun s i hs => (h s i hs.1).mp hs.2
  · intro hC
    exact (meets_and.mpr ⟨hD, hC⟩).mono fun s i hs => (h s i hs.1).mpr hs.2

theorem meets_of_forall (m : Machine σ ι) {C : ι → Prop} (s : σ) {is : List ι}
    (h : ∀ i ∈ is, C i) : m.Meets (fun _ => C) s is := by
  induction is generalizing s with
  | nil => trivial
  | cons i is ih =>
    obtain ⟨hi, his⟩ := List.forall_mem_cons.mp h
    refine ⟨hi, ?_⟩
    cases m s i with
    | none => trivial
    | some s' => exact ih s' his

/-- An invariant holds at every step of every run whose steps all meet `C`. -/
theorem meets_of_invariant (m : Machine σ ι) {C : σ → ι → Prop} {P : σ → Prop}
    (hstep : ∀ s i s', C s i → m s i = some s' → P s → P s') {s : σ} {is : List ι}
    (hC : m.Meets C s is) (hs : P s) : m.Meets (fun s _ => P s) s is := by
  induction is generalizing s with
  | nil => trivial
  | cons i is ih =>
    refine ⟨hs, ?_⟩
    have hC2 := hC.2
    cases hi : m s i with
    | none => trivial
    | some s' =>
      rw [hi] at hC2
      exact ih hC2 (hstep s i s' hC.1 hi hs)

/-- The induction over a run, once: what every step keeps, every run keeps. -/
theorem invariant (m : Machine σ ι) {P : σ → Prop}
    (hstep : ∀ s i s', m s i = some s' → P s → P s')
    {s t : σ} {is : List ι} (hrun : m.run s is = some t) (hs : P s) : P t :=
  m.invariant_of_meets (fun s i s' _ => hstep s i s') hrun (m.meets_true s is) hs

/-- What holds at the end of a run and not at its start became true at one of its steps. -/
theorem exists_step_of_became (m : Machine σ ι) {P : σ → Prop} {s t : σ} {is : List ι}
    (hrun : m.run s is = some t) (hs : ¬ P s) (ht : P t) : ∃ before i after u v,
      is = before ++ i :: after ∧ m.run s before = some u ∧ m u i = some v ∧ ¬ P u ∧ P v := by
  induction is generalizing s with
  | nil =>
    obtain rfl : s = t := by simpa using hrun
    exact absurd ht hs
  | cons i is ih =>
    obtain ⟨s', hi, hrest⟩ := (run_cons m s t i is).mp hrun
    by_cases hs' : P s'
    · exact ⟨[], i, is, s, s', rfl, rfl, hi, hs, hs'⟩
    · obtain ⟨before, j, after, u, v, rfl, hbefore, hj, hu, hv⟩ := ih hrest hs'
      exact ⟨i :: before, j, after, u, v, rfl, (run_cons m s u i before).mpr ⟨s', hi, hbefore⟩,
        hj, hu, hv⟩

/-- What holds at the end of a run held throughout, or became true at a step after which it held. -/
theorem held_or_became (m : Machine σ ι) {P : σ → Prop} {s t : σ} {is : List ι}
    (hrun : m.run s is = some t) (ht : P t) : P s ∧ m.Meets (fun s _ => P s) s is ∨
    ∃ before i after u v, is = before ++ i :: after ∧ m.run s before = some u ∧ m u i = some v ∧
      ¬ P u ∧ P v ∧ m.Meets (fun s _ => P s) v after := by
  induction is generalizing s with
  | nil =>
    obtain rfl : s = t := by simpa using hrun
    exact .inl ⟨ht, trivial⟩
  | cons i is ih =>
    obtain ⟨s', hi, hrest⟩ := (run_cons m s t i is).mp hrun
    rcases ih hrest with ⟨hs', hheld⟩ | ⟨before, j, after, u, v, rfl, hbefore, hlast⟩
    · by_cases hs : P s
      · exact .inl ⟨hs, (meets_cons hi).mpr ⟨hs, hheld⟩⟩
      · exact .inr ⟨[], i, is, s, s', rfl, rfl, hi, hs, hs', hheld⟩
    · exact .inr ⟨i :: before, j, after, u, v, rfl,
        (run_cons m s u i before).mpr ⟨s', hi, hbefore⟩, hlast⟩

/-- Where some step goes down in rank until `Q` holds, a run reaches `Q`. -/
theorem exists_run_of_rank (m : Machine σ ι) {P Q : σ → Prop} {C : ι → Prop} (rank : σ → Nat)
    (hstep : ∀ s, P s → Q s ∨ ∃ i s', C i ∧ m s i = some s' ∧ P s' ∧ rank s' < rank s) {s : σ}
    (hs : P s) : ∃ is t, m.run s is = some t ∧ P t ∧ Q t ∧ ∀ i ∈ is, C i := by
  generalize hn : rank s = n
  induction n using Nat.strongRecOn generalizing s with
  | ind n ih =>
    subst hn
    rcases hstep s hs with hQ | ⟨i, s', hi, hs', hP, hlt⟩
    · exact ⟨[], s, rfl, hs, hQ, by simp⟩
    · obtain ⟨is, t, hrun, ht, hQ, his⟩ := ih (rank s') hlt hP rfl
      exact ⟨i :: is, t, (m.run_cons s t i is).mpr ⟨s', hs', hrun⟩, ht, hQ,
        List.forall_mem_cons.mpr ⟨hi, his⟩⟩

/-- Steps of the kind `C` go down in rank and the others do not go up, so there are no more of the
kind than the rank at the start. -/
theorem length_filter_le_rank (m : Machine σ ι) {P : σ → Prop} (C : ι → Bool) (rank : σ → Nat)
    (hinv : ∀ s i s', m s i = some s' → P s → P s')
    (hstep : ∀ s i s', P s → m s i = some s' → rank s' + (if C i then 1 else 0) ≤ rank s)
    {s t : σ} {is : List ι} (hrun : m.run s is = some t) (hs : P s) :
    (is.filter C).length + rank t ≤ rank s := by
  induction is generalizing s with
  | nil =>
    obtain rfl : s = t := by simpa using hrun
    simp
  | cons i is ih =>
    obtain ⟨s', hi, hrest⟩ := (run_cons m s t i is).mp hrun
    have hfirst := hstep s i s' hs hi
    have hothers := ih hrest (hinv s i s' hi hs)
    by_cases hC : C i = true
    · rw [List.filter_cons_of_pos hC, List.length_cons]
      rw [if_pos hC] at hfirst
      omega
    · rw [List.filter_cons_of_neg hC]
      rw [if_neg hC] at hfirst
      omega

/-- Where a step keeps `P` if and only if it meets `C`, as long as `Q` holds, `P` holds in every
state of a run whose steps meet `D` if and only if they all meet `C`. -/
theorem holds_throughout_iff (m : Machine σ ι) {C D : σ → ι → Prop} {P Q : σ → Prop}
    (hinv : ∀ s i s', m s i = some s' → Q s → Q s')
    (hstep : ∀ s i s', Q s → D s i → m s i = some s' → P s → (P s' ↔ C s i))
    {s t : σ} {is : List ι} (hrun : m.run s is = some t) (hD : m.Meets D s is) (hq : Q s)
    (hs : P s) : m.Meets (fun s _ => P s) s is ∧ P t ↔ m.Meets C s is := by
  induction is generalizing s with
  | nil =>
    obtain rfl : s = t := by simpa using hrun
    exact ⟨fun _ => trivial, fun _ => ⟨trivial, hs⟩⟩
  | cons i is ih =>
    obtain ⟨s', hi, hrest⟩ := (run_cons m s t i is).mp hrun
    obtain ⟨hDi, hDis⟩ := (meets_cons hi).mp hD
    have hq' : Q s' := hinv s i s' hi hq
    rw [meets_cons hi, meets_cons hi, ← hstep s i s' hq hDi hi hs]
    constructor
    · rintro ⟨⟨-, hothers⟩, ht⟩
      have hs' : P s' := by
        cases is with
        | nil =>
          obtain rfl : s' = t := by simpa using hrest
          exact ht
        | cons j js => exact hothers.1
      exact ⟨hs', (ih hrest hDis hq' hs').mp ⟨hothers, ht⟩⟩
    · rintro ⟨hs', hothers⟩
      have hthrough := (ih hrest hDis hq' hs').mpr hothers
      exact ⟨⟨hs, hthrough.1⟩, hthrough.2⟩

/-- Where a step keeps what is never regained if and only if it meets `C`, a run keeps it if and
only if its steps all meet `C`. -/
theorem kept_iff (m : Machine σ ι) {C D : σ → ι → Prop} {P : σ → Prop}
    (hstep : ∀ s i s', D s i → m s i = some s' → (P s' ↔ P s ∧ C s i))
    {s t : σ} {is : List ι} (hrun : m.run s is = some t) (hD : m.Meets D s is) :
    P t ↔ P s ∧ m.Meets C s is := by
  induction is generalizing s with
  | nil =>
    obtain rfl : s = t := by simpa using hrun
    exact ⟨fun h => ⟨h, trivial⟩, And.left⟩
  | cons i is ih =>
    obtain ⟨s', hi, hrest⟩ := (run_cons m s t i is).mp hrun
    obtain ⟨hDi, hDis⟩ := (meets_cons hi).mp hD
    rw [ih hrest hDis, hstep s i s' hDi hi, meets_cons hi, and_assoc]

/-! ### Outputs -/

variable {α β : Type*}

/-- What the steps of a run give out, in order: `f` says it of a step in its start state. -/
def outputs (m : Machine σ ι) (f : σ → ι → List α) : σ → List ι → List α
  | _, [] => []
  | s, i :: is => f s i ++ match m s i with
    | some s' => outputs m f s' is
    | none => []

theorem outputs_cons {m : Machine σ ι} {f : σ → ι → List α} {s s' : σ} {i : ι} {is : List ι}
    (h : m s i = some s') : m.outputs f s (i :: is) = f s i ++ m.outputs f s' is := by
  simp only [outputs, h]

/-- What every step appends to a record, the run appends in order. -/
theorem outputs_eq (m : Machine σ ι) {C : σ → ι → Prop} (f : σ → ι → List α) {g : σ → List α}
    (hstep : ∀ s i s', C s i → m s i = some s' → g s' = g s ++ f s i)
    {s t : σ} {is : List ι} (hrun : m.run s is = some t) (hC : m.Meets C s is) :
    g t = g s ++ m.outputs f s is := by
  induction is generalizing s with
  | nil =>
    obtain rfl : s = t := by simpa using hrun
    exact (List.append_nil _).symm
  | cons i is ih =>
    obtain ⟨s', hi, hrest⟩ := (run_cons m s t i is).mp hrun
    obtain ⟨hCi, hCis⟩ := (meets_cons hi).mp hC
    rw [ih hrest hCis, hstep s i s' hCi hi, outputs_cons hi, List.append_assoc]

/-- What every step adds to a sum, the run adds. -/
theorem outputs_length (m : Machine σ ι) {C : σ → ι → Prop} (f : σ → ι → List α) {d : σ → Nat}
    {e : σ → Nat}
    (hstep : ∀ s i s', C s i → m s i = some s' → d s' + e s = d s + e s' + (f s i).length)
    {s t : σ} {is : List ι} (hrun : m.run s is = some t) (hC : m.Meets C s is) :
    d t + e s = d s + e t + (m.outputs f s is).length := by
  induction is generalizing s with
  | nil =>
    obtain rfl : s = t := by simpa using hrun
    simp [outputs]
  | cons i is ih =>
    obtain ⟨s', hi, hrest⟩ := (run_cons m s t i is).mp hrun
    obtain ⟨hCi, hCis⟩ := (meets_cons hi).mp hC
    have hfirst := hstep s i s' hCi hi
    have hothers := ih hrest hCis
    rw [outputs_cons hi, List.length_append]
    omega

/-- A run gives out nothing if and only if none of its steps does. -/
theorem outputs_eq_nil_iff (m : Machine σ ι) (f : σ → ι → List α) {s t : σ} {is : List ι}
    (hrun : m.run s is = some t) :
    m.outputs f s is = [] ↔ m.Meets (fun s i => f s i = []) s is := by
  induction is generalizing s with
  | nil => exact ⟨fun _ => trivial, fun _ => rfl⟩
  | cons i is ih =>
    obtain ⟨s', hi, hrest⟩ := (run_cons m s t i is).mp hrun
    rw [outputs_cons hi, meets_cons hi, List.append_eq_nil_iff, ih hrest]

/-- Where a step adds to a good record and keeps it good if and only if it meets `C`, a run does so
if and only if its steps all meet `C`. `T` says what a state knows of the record. -/
theorem outputs_good_iff (m : Machine σ ι) {f : σ → ι → List α} {T : σ → List α → Prop}
    {G : List α → Prop} {C : σ → ι → Prop} (hinitial : ∀ l l', G (l ++ l') → G l)
    (hkeep : ∀ s i s' l, m s i = some s' → T s l → T s' (l ++ f s i))
    (hstep : ∀ s i s' l, m s i = some s' → T s l → G l → (G (l ++ f s i) ↔ C s i))
    {s t : σ} {is : List ι} {l : List α} (hrun : m.run s is = some t) (hT : T s l) (hG : G l) :
    G (l ++ m.outputs f s is) ↔ m.Meets C s is := by
  induction is generalizing s l with
  | nil => simpa [outputs, Meets] using hG
  | cons i is ih =>
    obtain ⟨s', hi, hrest⟩ := (run_cons m s t i is).mp hrun
    have hfirst := hstep s i s' l hi hT hG
    rw [outputs_cons hi, meets_cons hi, ← List.append_assoc]
    constructor
    · intro h
      have hgood := hinitial _ _ h
      exact ⟨hfirst.mp hgood, (ih hrest (hkeep s i s' l hi hT) hgood).mp h⟩
    · rintro ⟨hCi, hCis⟩
      exact (ih hrest (hkeep s i s' l hi hT) (hfirst.mpr hCi)).mpr hCis

/-- All that a run gives out is `P` if and only if all that its steps give out is. -/
theorem forall_mem_outputs_iff (m : Machine σ ι) (f : σ → ι → List α) (P : α → Prop) {s t : σ}
    {is : List ι} (hrun : m.run s is = some t) :
    (∀ x ∈ m.outputs f s is, P x) ↔ m.Meets (fun s i => ∀ x ∈ f s i, P x) s is := by
  induction is generalizing s with
  | nil => simp [outputs, Meets]
  | cons i is ih =>
    obtain ⟨s', hi, hrest⟩ := (run_cons m s t i is).mp hrun
    rw [outputs_cons hi, meets_cons hi, List.forall_mem_append, ih hrest]

/-- What holds of an output once it is given out, and keeps holding, holds at the end. -/
theorem forall_mem_outputs (m : Machine σ ι) {f : σ → ι → List α} {Q : σ → Prop}
    {R : σ → α → Prop} (hinv : ∀ s i s', m s i = some s' → Q s → Q s')
    (hkeep : ∀ s i s' x, m s i = some s' → R s x → R s' x)
    (hout : ∀ s i, Q s → ∀ x ∈ f s i, R s x) {s t : σ} {is : List ι}
    (hrun : m.run s is = some t) (hs : Q s) : ∀ x ∈ m.outputs f s is, R t x := by
  induction is generalizing s with
  | nil => simp [outputs]
  | cons i is ih =>
    obtain ⟨s', hi, hrest⟩ := (run_cons m s t i is).mp hrun
    rw [outputs_cons hi]
    refine List.forall_mem_append.mpr ⟨fun x hx => ?_, ih hrest (hinv s i s' hi hs)⟩
    refine m.invariant (P := fun u => R u x) (fun u j u' => hkeep u j u' x) hrun (hout s i hs x hx)

/-- What the steps keep of a state and its record, a run keeps of the whole record. -/
theorem outputs_invariant (m : Machine σ ι) {f : σ → ι → List α} {T : σ → List α → Prop}
    (hstep : ∀ s i s' l, m s i = some s' → T s l → T s' (l ++ f s i)) {s t : σ} {is : List ι}
    {l : List α} (hrun : m.run s is = some t) (hs : T s l) : T t (l ++ m.outputs f s is) := by
  induction is generalizing s l with
  | nil =>
    obtain rfl : s = t := by simpa using hrun
    simpa [outputs] using hs
  | cons i is ih =>
    obtain ⟨s', hi, hrest⟩ := (run_cons m s t i is).mp hrun
    rw [outputs_cons hi, ← List.append_assoc]
    exact ih hrest (hstep s i s' l hi hs)

/-- Outputs that do not depend on the state are those of the labels. -/
theorem outputs_of_run (m : Machine σ ι) (f : ι → List α) {s t : σ} {is : List ι}
    (hrun : m.run s is = some t) : m.outputs (fun _ => f) s is = is.flatMap f := by
  induction is generalizing s with
  | nil => rfl
  | cons i is ih =>
    obtain ⟨s', hi, hrest⟩ := (run_cons m s t i is).mp hrun
    rw [outputs_cons hi, ih hrest, List.flatMap_cons]

theorem outputs_flatMap (m : Machine σ ι) (f : σ → ι → List α) (h : α → List β) (s : σ)
    (is : List ι) : (m.outputs f s is).flatMap h = m.outputs (fun s i => (f s i).flatMap h) s is := by
  induction is generalizing s with
  | nil => rfl
  | cons i is ih =>
    simp only [outputs, List.flatMap_append]
    cases m s i with
    | none => rfl
    | some s' => rw [ih]

/-- Where each step adds to a log what answers to each thing it puts out, the log of a run is made of
the answers to all that the run puts out, in order. -/
theorem answered_of_run (m : Machine σ ι) {f : σ → ι → List α} {log : σ → List β}
    {R : α → List β → Prop}
    (hstep : ∀ s i s', m s i = some s' → ∃ chunks, List.Forall₂ R (f s i) chunks ∧
      log s' = log s ++ chunks.flatten)
    {s t : σ} {is : List ι} (hrun : m.run s is = some t) :
    ∃ chunks, List.Forall₂ R (m.outputs f s is) chunks ∧ log t = log s ++ chunks.flatten := by
  induction is generalizing s with
  | nil =>
    obtain rfl : s = t := by simpa using hrun
    exact ⟨[], .nil, by simp⟩
  | cons i is ih =>
    obtain ⟨s', hi, hrest⟩ := (run_cons m s t i is).mp hrun
    obtain ⟨chunks, hchunks, hlog⟩ := hstep s i s' hi
    obtain ⟨chunks', hchunks', hlog'⟩ := ih hrest
    refine ⟨chunks ++ chunks', ?_, ?_⟩
    · rw [outputs_cons hi]
      exact List.rel_append hchunks hchunks'
    · rw [hlog', hlog, List.flatten_append, List.append_assoc]

/-- Where every concrete step is a chain of abstract steps under `abs`, so is every run. -/
theorem refines (m : Machine σ ι) (abs : σ → τ) {R : τ → τ → Prop}
    (hstep : ∀ s i s', m s i = some s' → Relation.ReflTransGen R (abs s) (abs s'))
    {s t : σ} {is : List ι} (hrun : m.run s is = some t) :
    Relation.ReflTransGen R (abs s) (abs t) := by
  refine m.invariant (P := fun u => Relation.ReflTransGen R (abs s) (abs u)) ?_ hrun .refl
  intro u i u' hu hsu
  exact hsu.trans (hstep u i u' hu)

/-- Where every step of one machine is a run of the other under `R`, so is every run. -/
theorem simulates {κ : Type*} (m : Machine σ ι) (m' : Machine τ κ) {R : σ → τ → Prop}
    (hstep : ∀ s i s' u, m s i = some s' → R s u → ∃ ks u', m'.run u ks = some u' ∧ R s' u')
    {s t : σ} {u : τ} {is : List ι} (hrun : m.run s is = some t) (hR : R s u) :
    ∃ ks v, m'.run u ks = some v ∧ R t v := by
  refine m.invariant (P := fun t => ∃ ks v, m'.run u ks = some v ∧ R t v) ?_ hrun
    ⟨[], u, rfl, hR⟩
  rintro s i s' hi ⟨ks, v, hks, hv⟩
  obtain ⟨ks', w, hks', hw⟩ := hstep s i s' v hi hv
  exact ⟨ks ++ ks', w, (m'.run_append u w ks ks').mpr ⟨v, hks, hks'⟩, hw⟩

end Machine

end OcppProxy
