import StormDrive.Steps

set_option relaxedAutoImplicit false
set_option autoImplicit false

/-!
# A format before what needs sectors

A drive with sectors that the kernel cannot use has to be formatted before it is tested, partitioned
or enrolled. The guard asks that the steps have a format somewhere; `validateSteps` orders them by
rank, and a format and a test have the same rank.

## Main definitions

* `Step.needsSectors` — the step goes through the kernel's block layer.
* `Drive.Unformatted` — the kernel cannot use the drive's sectors.
* `FormatsFirst` — a format comes before every step that needs sectors.
* `TestsBeforeFormat` — a test comes before a format.

## Main results

* `formatsFirst_iff` — **what the guard lets on to an unformatted drive formats it first, exactly
  when no test comes before the format**.
* `test_before_format` — a job that tests and then formats is let on.
-/

namespace StormDrive

/-- The step reads or writes sectors through the kernel. -/
def Step.needsSectors : Step → Bool
  | .test _ | .partition _ | .enroll .. => true
  | _ => false

/-- A drive test. -/
def Step.isTest : Step → Bool
  | .test _ => true
  | _ => false

/-- The kernel cannot use the drive's sectors. -/
def Drive.Unformatted (d : Drive) : Prop := d.usable = false ∨ d.blockSize ∉ usableBlockSizes

/-- A format comes before every step that needs sectors: no such step is the next one while none of
the steps before it has formatted the drive. -/
def FormatsFirst (steps : List Step) : Prop :=
  ∀ before s after, steps = before ++ s :: after → s.needsSectors = true →
    ∃ f ∈ before, f.isFormat = true

/-- A test comes before a format. -/
def TestsBeforeFormat (steps : List Step) : Prop :=
  ∃ before s after, steps = before ++ s :: after ∧ s.isTest = true ∧
    ∃ f ∈ after, f.isFormat = true

/-! ## The order of valid steps -/

/-- A step that passes after others has a new name and a rank that is not less, and so do those that
come after it. -/
lemma validateFrom_eq_none {seen : List String} {rank : Nat} {steps : List Step}
    (h : validateFrom seen rank steps = none) :
    (∀ s ∈ steps, rank ≤ s.rank ∧ s.name ∉ seen) ∧
      steps.Pairwise fun s t => s.rank ≤ t.rank ∧ s.name ≠ t.name := by
  induction steps generalizing seen rank with
  | nil => exact ⟨nofun, List.Pairwise.nil⟩
  | cons s rest ih =>
    unfold validateFrom at h
    simp only [Option.orElse_eq_none, refuse_eq_none_iff] at h
    obtain ⟨fresh, ordered, -, later⟩ := h
    obtain ⟨above, pairs⟩ := ih later
    have up : rank ≤ s.rank := by omega
    constructor
    · intro t ht
      obtain rfl | ht := List.mem_cons.mp ht
      · exact ⟨up, fresh⟩
      · obtain ⟨le, new⟩ := above t ht
        exact ⟨up.trans le, fun mem => new (List.mem_cons_of_mem _ mem)⟩
    · refine List.pairwise_cons.mpr ⟨fun t ht => ?_, pairs⟩
      obtain ⟨le, new⟩ := above t ht
      exact ⟨le, fun same => new (same ▸ List.mem_cons_self)⟩

/-- Valid steps come in the order of their ranks, each kind once. -/
lemma pairwise_of_valid {steps : List Step} (valid : validateSteps steps = .ok ()) :
    steps.Pairwise fun s t => s.rank ≤ t.rank ∧ s.name ≠ t.name := by
  unfold validateSteps at valid
  dsimp only at valid
  split at valid
  · exact absurd valid nofun
  · next h =>
    simp only [Option.orElse_eq_none] at h
    exact (validateFrom_eq_none h.2.1).2

/-! ## What the guard lets on -/

/-- Without a format in the list, a step that needs sectors is refused on an unformatted drive. -/
lemma formatted_of_stepRefusal {d : Drive} {cx : Context} {s : Step}
    (needs : s.needsSectors = true) (passed : stepRefusal d cx false s = none) :
    ¬ d.Unformatted := by
  cases s with
  | test _ | partition _ | enroll _ _ =>
    simp only [stepRefusal, Option.orElse_eq_none, refuse_eq_none_iff, true_and] at passed
    simp [Drive.Unformatted, passed]
  | format _ _ | sanitize _ | securityErase _ => exact absurd needs nofun

/-- The guard lets a step that needs sectors on to an unformatted drive only in a list with a
format. -/
lemma any_isFormat_of_guard {d : Drive} {steps : List Step} {named : Bool} {cx : Context}
    (unformatted : d.Unformatted) (accepted : guard d steps named cx = .ok ()) {s : Step}
    (hs : s ∈ steps) (needs : s.needsSectors = true) : steps.any Step.isFormat = true := by
  rw [guard_eq_ok_iff, guardRefusal_eq_none_iff] at accepted
  have passed := accepted.2.2.2.2.2 s hs
  by_contra none
  rw [Bool.not_eq_true] at none
  rw [none] at passed
  exact formatted_of_stepRefusal needs passed unformatted

/-- A step that formats has the first rank, and one name. -/
lemma rank_and_name_of_isFormat {s : Step} (h : s.isFormat = true) :
    s.rank = 0 ∧ s.name = "format" := by
  cases s with
  | format _ _ => exact ⟨rfl, rfl⟩
  | sanitize _ | securityErase _ | test _ | partition _ | enroll _ _ => exact absurd h nofun

/-- **What the guard lets on to an unformatted drive formats it first, exactly when no test comes
before the format**: for the steps of a valid list that are left to run.

**Proof sketch.** The guard asks for a format somewhere in the list (`any_isFormat_of_guard`). A
format behind a step that needs sectors has at least the rank of that step, which is then a test;
and a format before it and another one behind it would be two of a name. -/
theorem formatsFirst_iff (d : Drive) (steps suffix : List Step) (named : Bool) (cx : Context)
    (unformatted : d.Unformatted) (valid : validateSteps steps = .ok ())
    (left : suffix <:+ steps) (accepted : guard d suffix named cx = .ok ()) :
    FormatsFirst suffix ↔ ¬ TestsBeforeFormat suffix := by
  have ordered := (pairwise_of_valid valid).sublist left.sublist
  constructor
  · rintro first ⟨before, s, after, split, test, g, hg, format⟩
    have needs : s.needsSectors = true := by
      cases s with
      | test kind => rfl
      | format _ _ | sanitize _ | securityErase _ | partition _ | enroll _ _ =>
        exact absurd test nofun
    obtain ⟨f, hf, format'⟩ := first before s after split needs
    rw [split] at ordered
    have distinct := (List.pairwise_append.mp ordered).2.2 f hf g (List.mem_cons_of_mem _ hg)
    apply distinct.2
    rw [(rank_and_name_of_isFormat format').2, (rank_and_name_of_isFormat format).2]
  · intro none before s after split needs
    have mem : s ∈ suffix := by
      rw [split]
      simp
    obtain ⟨f, hf, format⟩ := List.any_eq_true.mp
      (any_isFormat_of_guard unformatted accepted mem needs)
    rw [split] at hf ordered
    obtain hf | hf := List.mem_append.mp hf
    · exact ⟨f, hf, format⟩
    · exfalso
      obtain rfl | behind := List.mem_cons.mp hf
      · cases f with
        | format _ _ => exact absurd needs nofun
        | sanitize _ | securityErase _ | test _ | partition _ | enroll _ _ =>
          exact absurd format nofun
      · -- the rank of the step is that of the format behind it: only a test has it
        have le := (List.pairwise_cons.mp (List.pairwise_append.mp ordered).2.1).1 f behind |>.1
        rw [(rank_and_name_of_isFormat format).1] at le
        cases s with
        | test kind => exact none ⟨before, .test kind, after, split, rfl, f, behind, format⟩
        | partition _ | enroll _ _ => exact absurd le (Nat.not_succ_le_zero _)
        | format _ _ | sanitize _ | securityErase _ => exact absurd needs nofun

/-- A drive with 520-byte sectors. -/
def netappDrive : Drive :=
  { Drive.testFixture ⟨⟨1⟩⟩ "sdb" with kind := .sasHdd, usable := false, blockSize := 520 }

/-- A job that formats, tests and partitions a drive with 520-byte sectors is let on, and formats
first. -/
theorem formatsFirst_netapp :
    FormatsFirst [.format 4096 .none, .test .smoke, .partition .data] := by
  have none : ¬ TestsBeforeFormat [.format 4096 .none, .test .smoke, .partition .data] := by
    rintro ⟨before, s, after, split, test, f, hf, format⟩
    have last : [Step.test .smoke, .partition .data].all fun t => !t.isFormat := by decide
    cases before with
    | nil =>
      obtain ⟨rfl, -⟩ := List.cons.inj split
      exact absurd test nofun
    | cons b before =>
      obtain ⟨-, tail⟩ := List.cons.inj split
      have mem : f ∈ [Step.test .smoke, .partition .data] := by
        rw [tail]
        simp [hf]
      have := List.all_eq_true.mp last f mem
      simp [format] at this
  exact (formatsFirst_iff netappDrive _ _ false {} (.inl rfl) (by decide) (List.suffix_refl _)
    (by decide)).mpr none

/-- **A test before the format is let on**: the test is the next step on a drive with sectors that
the kernel cannot use. -/
theorem test_before_format :
    netappDrive.Unformatted ∧
    validateSteps [.test .smoke, .format 4096 .none] = .ok () ∧
    guard netappDrive [.test .smoke, .format 4096 .none] false {} = .ok () ∧
    ¬ FormatsFirst [.test .smoke, .format 4096 .none] := by
  refine ⟨.inl rfl, by decide, by decide, fun first => ?_⟩
  obtain ⟨f, hf, -⟩ := first [] (.test .smoke) [.format 4096 .none] rfl rfl
  exact absurd hf nofun

end StormDrive
