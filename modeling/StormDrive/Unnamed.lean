import StormDrive.Daemon.Scope

set_option relaxedAutoImplicit false
set_option autoImplicit false

/-!
# Data that nobody named

Whether the steps of a job can overwrite a drive that holds something and that the request does not
name. The guard asks for the name when a step destroys, and a step's rank says whether it destroys.
What a step really does is what `run_step` does, for every answer of the drives and of the engine.

## Main definitions

* `Cmd.overwrites`, `Overwrites` — an operation that overwrites the drive: a command that changes
  the medium, or the slab that the engine formats on the whole drive.
* `runSteps` — the steps of a suffix, one after another.
* `SparesUnnamed` — nothing is laid over data that nobody named.

## Main results

* `only_of_not_destroys` — a step that does not destroy by its rank overwrites nothing, unless it
  enrols the whole drive.
* `sparesUnnamed_iff` — exactly when unnamed data is spared.
-/

namespace StormDrive

open Interleave Interleave.Prog Work

/-! ## What overwrites a drive -/

/-- The command changes what is on the medium. -/
def Cmd.overwrites : Cmd → Bool
  | .formatUnit .. | .formatNvm _ | .sanitize _ | .eraseUnit .. | .writeLayout _
  | .writePattern => true
  | _ => false

/-- The operation itself overwrites the drive: a command of the daemon's own, or the engine's slab
over the whole drive. -/
def OverwritesItself (d : Drive) : Op → Prop
  | .device (.send _ cmd _) => cmd.overwrites = true
  | .engine (.formatSlab target _ _) => target = d.path
  | _ => False

variable (cfg : Settings)

/-- The operation overwrites the drive, itself or by the task it starts. -/
def Overwrites (d : Drive) : Op → Prop
  | .spawn r => ∃ o, Performs o (r.entry cfg) ∧ OverwritesItself d o
  | o => OverwritesItself d o

/-- The steps of a suffix as `run_drive` takes them: the next after the last has succeeded. -/
def runSteps (job : JobId) (idx : Nat) (d : Drive) (steps : List Step) :
    Nat → List Step → Work (Except String Unit)
  | _, [] => pure (.ok ())
  | k, s :: rest =>
    andThen (runStep cfg ⟨job, idx, k⟩ d s steps) fun _ => runSteps job idx d steps (k + 1) rest

/-- Something is held on the drive: the fresh read or the record shows it. -/
def Held (d : Drive) (cx : Context) : Prop :=
  cx.holds ≠ none ∨ d.inUseBy ≠ none

/-- **Unnamed data is spared**: when the guard accepts a suffix of the steps on a drive that the
request does not name, and the drive holds something, then no answer makes the suffix overwrite
it. -/
def SparesUnnamed (job : JobId) (idx : Nat) (d : Drive) (cx : Context) (steps : List Step)
    (k : Nat) : Prop :=
  ∀ destroy : List String, namedForDestroy d destroy = false →
    guard d (steps.drop k) (namedForDestroy d destroy) cx = .ok () → Held d cx →
      ∀ o, Performs o (runSteps cfg job idx d steps k (steps.drop k)) → ¬ Overwrites cfg d o

/-! ## What the steps do -/

section Steps

variable {cfg} {d : Drive} {ref : StepRef} {N : Op → Prop}

/-- What `andThen` can perform. -/
lemma performs_andThen {α β : Type} {p : Work (Except String α)}
    {f : α → Work (Except String β)} {o : Op} {a : α} (hp : Returns (.ok a) p)
    (hf : Performs o (f a)) : Performs o (andThen p f) :=
  (performs_bind_iff o p _).mpr (.inr ⟨.ok a, hp, hf⟩)

/-- The task of a test that only reads sends nothing. -/
lemma only_testTask {h : Nat} {kind : TestKind} {step : Option StepRef}
    (hk : kind.isDestructive = false) :
    Only (fun o => ¬ OverwritesItself d o) (testTask cfg h d kind step) := by
  have hrest : ∀ st : RunState, Only (fun o => ¬ OverwritesItself d o)
      (do
        setRun h st
        let _ ← changeDrive d.id (.testActivity .idle)
        persist cfg) := by
    intro st
    simp only [op_bind, only_act_iff]
    exact ⟨id, fun _ => ⟨id, fun _ => only_persist id id⟩⟩
  refine Only.bind ?_ hrest
  simp only [testBlocking, hk, op_bind, only_act_iff]
  refine ⟨id, fun r => ?_⟩
  cases r with
  | error why => exact only_ret _
  | ok dev =>
    simp only [Bool.false_eq_true, if_false, only_act_iff]
    refine ⟨id, fun r => ?_⟩
    cases r <;> exact only_ret _

/-- A test that only reads overwrites nothing. -/
lemma only_stepTest {kind : TestKind} (hk : kind.isDestructive = false) :
    Only (fun o => ¬ Overwrites cfg d o) (stepTest ref d kind) := by
  simp only [stepTest, testStart, op_bind, act_bind, pure_eq, ret_bind, only_act_iff]
  refine ⟨id, fun h => ⟨id, fun _ => ⟨?_, fun _ => ⟨id, fun st => ?_⟩⟩⟩⟩
  · intro hspawn
    obtain ⟨o, ho, hover⟩ := hspawn
    exact only_testTask hk o (performs_once_iff.mp ho) hover
  · refine Only.bind (only_waitNotTesting (fun _ => id) _ _) fun _ => ?_
    cases st <;> exact only_ret _

/-- An enrolment of a partition overwrites nothing of the whole drive. -/
lemma only_stepEnroll {tier : Option String} {role : Role} {steps : List Step}
    (ht : enrollTarget d steps ≠ d.path) :
    Only (fun o => ¬ Overwrites cfg d o) (stepEnroll cfg d tier role steps) := by
  refine Only.andThen (by simp [Overwrites, OverwritesItself]) fun listed =>
    Only.andThen ?_ fun _ => Only.andThen ?_ fun _ => ?_
  · unfold openInEngine
    split <;> simp [Overwrites, OverwritesItself]
  · simp only [slabInEngine, op_bind, only_act_iff]
    refine ⟨id, fun slabs => ?_⟩
    split
    · exact Only.andThen (by simpa [Overwrites, OverwritesItself] using ht) fun _ => only_ret _
    · exact only_ret _
  · simp only [op_bind, only_act_iff]
    exact ⟨id, fun _ => Only.bind (only_persist id id) fun _ => only_ret _⟩

/-- **A step that does not destroy by its rank** overwrites nothing, unless it enrols the whole
drive. -/
theorem only_of_not_destroys {s : Step} {steps : List Step} (hs : s.destroys = false)
    (ht : s.isEnroll = true → enrollTarget d steps ≠ d.path) :
    Only (fun o => ¬ Overwrites cfg d o) (runStep cfg ref d s steps) := by
  cases s with
  | test kind => exact only_stepTest (by simpa [Step.destroys] using hs)
  | enroll tier role => exact only_stepEnroll (ht rfl)
  | _ => simp [Step.destroys, Step.rank] at hs

/-- A test can pass. -/
lemma returns_stepTest (kind : TestKind) :
    Returns (.ok ((Step.test kind).describe ++ " test passed")) (stepTest ref d kind) := by
  have hwait : ∀ n, Returns () (waitNotTesting d.id n) := by
    intro n
    cases n with
    | zero => exact .here
    | succ n =>
      simp only [waitNotTesting, op_bind, returns_act_iff]
      exact ⟨none, .here⟩
  simp only [stepTest, testStart, op_bind, act_bind, pure_eq, ret_bind, returns_act_iff]
  refine ⟨(0 : Nat), none, (), RunState.passed, ?_⟩
  exact (returns_bind_iff _ _ _).mpr ⟨(), hwait 30, .here⟩

/-- **An enrolment of the whole drive** can have the engine format it: the engine opens the drive
and lists no slab. -/
lemma performs_stepEnroll {tier : Option String} {role : Role} {steps : List Step}
    (ht : enrollTarget d steps = d.path) :
    ∃ o, Performs o (stepEnroll cfg d tier role steps) ∧ Overwrites cfg d o := by
  refine ⟨.engine (.formatSlab d.path (tier.getD (cfg.tierFor d.kind)) (some role)), ?_, rfl⟩
  unfold stepEnroll
  rw [ht]
  refine performs_andThen (a := []) ?_ (performs_andThen (a := ()) ?_ ?_)
  · exact (returns_act_iff _ _ _).mpr ⟨.ok [], .here⟩
  · simp only [openInEngine, List.any_nil, Bool.false_eq_true, if_false]
    exact (returns_act_iff _ _ _).mpr ⟨.ok (), .here⟩
  · refine (performs_bind_iff _ _ _).mpr (.inl ?_)
    simp only [slabInEngine, op_bind, performs_act_iff]
    refine .inr ⟨.ok [], ?_⟩
    exact (performs_bind_iff _ _ _).mpr (.inl (.here _))

end Steps

/-! ## When unnamed data is spared -/

section Suffix

variable {cfg} {d : Drive} {steps : List Step} {job : JobId} {idx : Nat}

/-- Steps that do not destroy by their rank overwrite nothing, when none enrols the whole drive. -/
lemma only_runSteps {l : List Step} (hl : ∀ s ∈ l, s.destroys = false)
    (he : ∀ s ∈ l, s.isEnroll = true → enrollTarget d steps ≠ d.path) (k : Nat) :
    Only (fun o => ¬ Overwrites cfg d o) (runSteps cfg job idx d steps k l) := by
  induction l generalizing k with
  | nil => exact only_ret _
  | cons s rest ih =>
    refine Only.andThen (only_of_not_destroys (hl s List.mem_cons_self)
      (he s List.mem_cons_self)) fun _ => ?_
    exact ih (fun t ht => hl t (List.mem_cons_of_mem s ht))
      (fun t ht => he t (List.mem_cons_of_mem s ht)) (k + 1)

/-- Steps that do not destroy by their rank can overwrite the drive when one enrols it whole: the
steps before it are tests, and they pass. -/
lemma performs_runSteps {l : List Step} (hl : ∀ s ∈ l, s.destroys = false)
    (he : ∃ s ∈ l, s.isEnroll = true) (ht : enrollTarget d steps = d.path) (k : Nat) :
    ∃ o, Performs o (runSteps cfg job idx d steps k l) ∧ Overwrites cfg d o := by
  induction l generalizing k with
  | nil => simp at he
  | cons s rest ih =>
    have hs : s.destroys = false := hl s List.mem_cons_self
    cases s with
    | test kind =>
      obtain ⟨s, hmem, hen⟩ := he
      have hrest : s ∈ rest := by
        rcases List.mem_cons.mp hmem with rfl | h
        · simp [Step.isEnroll] at hen
        · exact h
      obtain ⟨o, ho, hover⟩ := ih (fun t ht => hl t (List.mem_cons_of_mem _ ht)) ⟨s, hrest, hen⟩
        (k + 1)
      exact ⟨o, performs_andThen (returns_stepTest kind) ho, hover⟩
    | enroll tier role =>
      obtain ⟨o, ho, hover⟩ : ∃ o, Performs o (stepEnroll cfg d tier role steps) ∧
          Overwrites cfg d o := performs_stepEnroll ht
      exact ⟨o, (performs_bind_iff o _ _).mpr (.inl ho), hover⟩
    | _ => simp [Step.destroys, Step.rank] at hs

/-- Where the guard accepts steps on a drive that holds something and is not named, no step
destroys by its rank. -/
lemma destroys_eq_false_of_guard {l : List Step} {cx : Context} (hheld : Held d cx)
    (hg : guardRefusal d l false cx = none) : ∀ s ∈ l, s.destroys = false := by
  obtain ⟨-, -, -, hnamed, -, -⟩ := (guardRefusal_eq_none_iff d l false cx).mp hg
  intro s hs
  by_contra hd
  have hany : l.any Step.destroys = true :=
    List.any_eq_true.mpr ⟨s, hs, by simpa using hd⟩
  obtain ⟨hholds, hin, -⟩ := hnamed hany rfl
  rcases hheld with h | h
  · exact h hholds
  · exact h hin

end Suffix

/-- What an enrolment opens is the whole drive exactly when the job has no partition step. -/
theorem enrollTarget_eq_path_iff {d : Drive} (hd : d.path = devPath d.name) (steps : List Step) :
    enrollTarget d steps = d.path ↔ ∀ s ∈ steps, s.isPartition = false := by
  have hne : "/dev/" ++ partitionName d.name 1 ≠ devPath d.name := by
    intro h
    have hlen := congrArg String.length h
    have hone : (toString 1).length = 1 := by decide
    simp only [devPath, partitionName] at hlen
    split at hlen
    · split at hlen <;> simp only [String.length_append] at hlen <;> omega
    · simp only [String.length_append] at hlen
      omega
  unfold enrollTarget
  rw [hd]
  split
  · next h =>
    constructor
    · intro heq
      exact absurd heq hne
    · intro hall
      obtain ⟨s, hs, hp⟩ := List.any_eq_true.mp h
      simp [hall s hs] at hp
  · next h =>
    constructor
    · intro _ s hs
      by_contra hp
      exact h (List.any_eq_true.mpr ⟨s, hs, by simpa using hp⟩)
    · intro _
      rfl

/-- **When unnamed data is spared**: the guard refuses the suffix, or nothing is held on the
drive, or no step of the suffix enrols, or what an enrolment opens is not the whole drive.

**Proof sketch.** A suffix that the guard accepts on an unnamed drive that holds something has no
step that destroys by its rank (`destroys_eq_false_of_guard`): it tests and enrols. Such steps
overwrite nothing but by an enrolment of the whole drive (`only_runSteps`), and that one the engine
can answer so that it does (`performs_runSteps`). -/
theorem sparesUnnamed_iff (cfg : Settings) (job : JobId) (idx : Nat) (d : Drive) (cx : Context)
    (steps : List Step) (k : Nat) :
    SparesUnnamed cfg job idx d cx steps k ↔
      guard d (steps.drop k) false cx ≠ .ok () ∨ ¬ Held d cx ∨
        (∀ s ∈ steps.drop k, s.isEnroll = false) ∨ enrollTarget d steps ≠ d.path := by
  constructor
  · intro hspares
    by_contra hcond
    simp only [not_or, not_not, not_forall, Bool.not_eq_false] at hcond
    obtain ⟨hg, hheld, ⟨s, hs, hen⟩, ht⟩ := hcond
    have hdes := destroys_eq_false_of_guard hheld ((guard_eq_ok_iff _ _ _ _).mp hg)
    obtain ⟨o, ho, hover⟩ : ∃ o, Performs o (runSteps cfg job idx d steps k (steps.drop k)) ∧
        Overwrites cfg d o := performs_runSteps hdes ⟨s, hs, hen⟩ ht k
    have hnil : namedForDestroy d [] = false := rfl
    exact hspares [] hnil (by rw [hnil]; exact hg) hheld o ho hover
  · intro hcond destroy hnamed hg hheld
    rw [hnamed] at hg
    have hdes := destroys_eq_false_of_guard hheld ((guard_eq_ok_iff _ _ _ _).mp hg)
    refine only_runSteps hdes (fun s hs hen => ?_) k
    rcases hcond with h | h | h | h
    · exact absurd hg h
    · exact absurd hheld h
    · simp [h s hs] at hen
    · exact h

/-- A job that only enrols, on a drive with a filesystem that nobody named: the guard accepts it,
and the engine, which lists no slab there, formats one over the filesystem. -/
theorem enroll_overwrites_unnamed :
    let d := Drive.testFixture ⟨⟨7⟩⟩ "sdb"
    let cx : Context := { holds := some "xfs (whole drive)", stormblock := true }
    validateSteps [.enroll none .data] = .ok () ∧
      ¬ SparesUnnamed {} "j1" 0 d cx [.enroll none .data] 0 := by
  intro d cx
  refine ⟨by decide, fun h => ?_⟩
  obtain ⟨o, ho, hover⟩ : ∃ o, Performs o (runSteps {} "j1" 0 d [.enroll none .data] 0
      [.enroll none .data]) ∧ Overwrites {} d o :=
    performs_runSteps (by decide) (by decide) (by decide) 0
  exact h [] rfl (by decide) (.inl (by decide)) o ho hover

end StormDrive
