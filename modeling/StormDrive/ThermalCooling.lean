import Mathlib.Data.List.Chain
import StormDrive.Interleave.Stretches
import StormDrive.ThermalPass

set_option relaxedAutoImplicit false
set_option autoImplicit false

/-!
# The cooling that a node asks for

The cooling request of a node (`thermal.rs`, `cooling` and `pass`): what it is for, hottest first,
since when it stands, and what is told of it.

## Main definitions

* `Thermal.requests` — the requests that were told, one behind the other.

## Main results

* `Thermal.why_cooling` — **the reasons are the components near a limit, each once and the hottest
  first, and the fans that do not cool**.
* `Thermal.cooling_told` — **the request stands since the pass with which it came, and the last that
  was told is the one that stands**.
-/

namespace StormDrive

namespace Thermal

variable {α : Type} [NatCast α] [Sub α] [LinearOrder α]

/-! ## What a request is for -/

omit [NatCast α] in
lemma mem_hot_iff {components : List (Component α)} {c : Component α} :
    c ∈ hot components ↔ c ∈ components ∧ .near ≤ c.level := by
  rw [hot, (StableSort.perm_byKey _).mem_iff]
  simp

omit [NatCast α] in
/-- **The reasons of a request** are the components near a limit or over it, each as often as it is
there, the higher level first and under one level the smaller margin, and behind them the fans that
do not cool. -/
theorem why_cooling (components : List (Component α)) (fans : List Fan) :
    ∃ l : List (Component α), (cooling components fans).2 =
        l.map causeOf ++ fans.filterMap (fun f => f.problem.map .fan) ∧
      l.Perm (components.filter fun c => .near ≤ c.level) ∧
      l.Pairwise fun a b => b.level < a.level ∨ (a.level = b.level ∧ margin a ≤ margin b) := by
  refine ⟨hot components, rfl, StableSort.perm_byKey _, ?_⟩
  refine (StableSort.pairwise_byKey _).imp ?_
  intro a b le
  rcases Prod.Lex.le_iff.mp le with lt | ⟨same, le⟩
  · exact Or.inl lt
  · exact Or.inr ⟨same, le⟩

omit [NatCast α] in
/-- Full speed for a component at its critical limit. -/
lemma cooling_max_iff (components : List (Component α)) (fans : List Fan) :
    (cooling components fans).1 = .max ↔ ∃ c ∈ components, c.level = .critical := by
  have critical : ((hot components).any fun c => c.level = .critical) = true ↔
      ∃ c ∈ components, c.level = .critical := by
    rw [List.any_eq_true]
    constructor
    · rintro ⟨c, mem, level⟩
      exact ⟨c, (mem_hot_iff.mp mem).1, of_decide_eq_true level⟩
    · rintro ⟨c, mem, level⟩
      refine ⟨c, mem_hot_iff.mpr ⟨mem, ?_⟩, decide_eq_true level⟩
      rw [level]
      decide
  rw [← critical, cooling]
  split_ifs with any none <;> simp [any]

omit [NatCast α] in
/-- The BMC's own curve when nothing is near a limit and every fan cools. -/
lemma cooling_auto_iff (components : List (Component α)) (fans : List Fan) :
    (cooling components fans).1 = .auto ↔
      (∀ c ∈ components, c.level < .near) ∧ ∀ f ∈ fans, f.problem = none := by
  have empty : ((hot components).map causeOf ++
      fans.filterMap fun f => f.problem.map (Cause.fan : String → Cause α)).isEmpty = true ↔
      (∀ c ∈ components, c.level < .near) ∧ ∀ f ∈ fans, f.problem = none := by
    rw [List.isEmpty_iff, List.append_eq_nil_iff, List.map_eq_nil_iff,
      List.filterMap_eq_nil_iff]
    refine and_congr ?_ (by simp)
    rw [List.eq_nil_iff_forall_not_mem]
    simp [mem_hot_iff]
  rw [← empty, cooling]
  split_ifs with any none
  · simp only [false_iff]
    intro none
    rw [List.isEmpty_iff, List.append_eq_nil_iff, List.map_eq_nil_iff] at none
    simp [none.1] at any
  · simp [none]
  · simpa using none

/-! ## What is told of it -/

/-- The cooling requests that were told, the first first. -/
def requests (log : List (Note α)) : List CoolingLevel :=
  log.filterMap fun note => match note with
    | .cooling c => some c.request
    | _ => none

omit [NatCast α] [Sub α] [LinearOrder α] in
lemma requests_append (l k : List (Note α)) : requests (l ++ k) = requests l ++ requests k :=
  List.filterMap_append

omit [NatCast α] [Sub α] [LinearOrder α] in
lemma requests_alerts (l : List (Alert α)) : requests (l.map .alert) = [] := by
  simp [requests]

omit [NatCast α] [Sub α] [LinearOrder α] in
/-- Proposals to replace a drive are no cooling requests. -/
lemma requests_proposals (xs : List (DriveId × DriveState α))
    (s : (DriveId → Option (DriveState α)) × List (Note α)) :
    requests (xs.foldl Node.onDrive s).2 = requests s.2 := by
  induction xs generalizing s with
  | nil => rfl
  | cons x xs ih =>
    rw [List.foldl_cons, ih]
    unfold Node.onDrive
    split_ifs with proposed
    · rw [requests_append]
      exact List.append_nil _
    · rfl

/-- The request that stands. -/
def Node.request (n : Node α) : Option CoolingLevel := n.tracker.cooling.map Cooling.request

/-- What was told since a log was such, from the BMC's own curve on: each request another than the
one before, and the last one the request that stands. -/
def Node.Tells (n : Node α) (log : List (Note α)) : Prop :=
  ∃ told, n.log = log ++ told ∧ (CoolingLevel.auto :: requests told).IsChain (· ≠ ·) ∧
    (CoolingLevel.auto :: requests told).getLast? = some (n.request.getD .auto)

omit [NatCast α] [Sub α] [LinearOrder α] in
/-- A request that is told is another than the one that stood, and one that is not told is the
same. -/
lemma coolingChange_cases (was : Option (Cooling α)) (now : Cooling α) :
    (Node.coolingChange was now = some now ∧ now.request ≠ (was.map Cooling.request).getD .auto) ∨
      (Node.coolingChange was now = none ∧
        now.request = (was.map Cooling.request).getD .auto) := by
  cases was with
  | none =>
    by_cases idle : now.request = .auto
    · exact Or.inr ⟨if_pos idle, idle⟩
    · exact Or.inl ⟨if_neg idle, idle⟩
  | some c =>
    by_cases same : c.request = now.request
    · exact Or.inr ⟨if_pos same, same.symm⟩
    · exact Or.inl ⟨if_neg same, fun eq => same eq.symm⟩

/-- **Every happening but a restart keeps it.** -/
lemma Node.Tells.step {n : Node α} {log : List (Note α)} (h : n.Tells log) (e : Happening α)
    (up : ∀ thermal, e ≠ .restart thermal) : (n.step e).Tells log := by
  cases e with
  | restart thermal => exact absurd rfl (up thermal)
  | forget drive => exact h
  | pass p inventory kept =>
    obtain ⟨told, split, chain, last⟩ := h
    refine ⟨told ++ ((n.tracker.pass p).1.map .alert ++ (n.onDrives p inventory).2 ++
      ((Node.coolingChange n.tracker.cooling (n.tracker.coolingNext p)).map
        Note.cooling).toList), ?_, ?_⟩
    · rw [← List.append_assoc, ← split]
      rfl
    · have proposals : requests (n.onDrives p inventory).2 = [] := requests_proposals _ _
      have now : (n.step (.pass p inventory kept)).request =
          some (n.tracker.coolingNext p).request := rfl
      rw [requests_append, requests_append, requests_append, requests_alerts, proposals, now]
      rcases coolingChange_cases n.tracker.cooling (n.tracker.coolingNext p) with
        ⟨new, other⟩ | ⟨none, same⟩
      · rw [new]
        have one : requests [Note.cooling (n.tracker.coolingNext p)] =
            [(n.tracker.coolingNext p).request] := rfl
        simp only [Option.map_some, Option.toList_some, one, List.nil_append]
        rw [← List.cons_append]
        refine ⟨List.isChain_append.mpr ⟨chain, List.isChain_singleton _, ?_⟩,
          List.getLast?_concat⟩
        intro x hx y hy
        rw [last] at hx
        obtain rfl := Option.some.inj hx
        obtain rfl := Option.some.inj hy
        exact other.symm
      · rw [none]
        have nothing : requests ([] : List (Note α)) = [] := rfl
        simp only [Option.map_none, Option.toList_none, nothing, List.append_nil]
        exact ⟨chain, last.trans (congrArg some same.symm)⟩

/-- The request that stands is for the components and the fans of the last pass. -/
def Node.Due (n : Node α) : Prop :=
  ∀ k, n.tracker.cooling = some k →
    cooling (n.tracker.components.map Prod.snd) n.tracker.fans = (k.request, k.why)

lemma Node.due_step (n : Node α) (e : Happening α) (h : n.Due) : (n.step e).Due := by
  cases e with
  | restart thermal => exact fun k none => by cases none
  | forget drive => exact h
  | pass p inventory kept =>
    intro k stands
    obtain rfl : n.tracker.coolingNext p = k := Option.some.inj stands
    rfl

/-- A request comes with a pass. -/
lemma pass_of_requested {m : Node α} {es rest : List (Happening α)} {e : Happening α}
    {r : CoolingLevel}
    (since : Runs.Since Node.step (fun n : Node α => n.request = some r) m es e rest) :
    ∃ p inventory kept, e = .pass p inventory kept := by
  have now := since.lasts [] List.nil_prefix
  rw [Runs.after_append] at now
  cases e with
  | pass p inventory kept => exact ⟨p, inventory, kept, rfl⟩
  | restart thermal => cases now
  | forget drive => exact absurd now since.began

/-- **A request keeps the time of the pass with which it came.** -/
lemma sinceUnix_of_requested {m : Node α} {es rest : List (Happening α)} {p : PassWhole α}
    {inventory : DriveId → Bool} {kept : Bool} {r : CoolingLevel}
    (since : Runs.Since Node.step (fun n : Node α => n.request = some r) m es
      (.pass p inventory kept) rest) :
    ∃ k, (Runs.after Node.step m (es ++ .pass p inventory kept :: rest)).tracker.cooling = some k ∧
      k.sinceUnix = p.now := by
  refine since.rec_on (Q := fun fs => ∃ k,
    (Runs.after Node.step m (es ++ .pass p inventory kept :: fs)).tracker.cooling = some k ∧
      k.sinceUnix = p.now) ?_ ?_
  · have now := since.lasts [] List.nil_prefix
    rw [Runs.after_append, Runs.after_cons, Runs.after_nil] at now ⊢
    set n := Runs.after Node.step m es
    refine ⟨n.tracker.coolingNext p, rfl, ?_⟩
    have level : (n.tracker.coolingNext p).request = r := Option.some.inj now
    have other : n.tracker.cooling.map Cooling.request ≠ some r := since.began
    rw [← level] at other
    unfold WholeTracker.coolingNext
    cases hc : n.tracker.cooling with
    | none => rfl
    | some c =>
      rw [hc] at other
      exact if_neg fun same => other (congrArg some same)
  · intro fs f _ before now ⟨k, stands, unix⟩
    have split : es ++ .pass p inventory kept :: (fs ++ [f]) =
        (es ++ .pass p inventory kept :: fs) ++ [f] := by simp
    rw [split, Runs.after_append, Runs.after_cons, Runs.after_nil] at now ⊢
    set n := Runs.after Node.step m (es ++ .pass p inventory kept :: fs)
    cases f with
    | restart thermal => cases now
    | forget drive => exact ⟨k, stands, unix⟩
    | pass q inventory' kept' =>
      refine ⟨n.tracker.coolingNext q, rfl, ?_⟩
      have level : (n.tracker.coolingNext q).request = r := Option.some.inj now
      have same : k.request = r := by
        rw [Node.request, stands] at before
        exact Option.some.inj before
      rw [← unix]
      unfold WholeTracker.coolingNext
      rw [stands]
      exact if_pos (same.trans level.symm)

/-- **The cooling that a node asks for, and what is told of it.** Over any run from a start of the
daemon to its next: each request that was told is another than the one told before, from the BMC's
own curve on, and the last is the one that stands. It stands since the pass with which it came, is
full speed exactly when a component is critical, and the BMC's own curve exactly when none is near a
limit and every fan cools. -/
theorem cooling_told (m : Node α) (fresh : m.tracker = {}) (es : List (Happening α))
    (up : ∀ thermal, .restart thermal ∉ es) :
    let n := Runs.after Node.step m es
    n.Tells m.log ∧
    ∀ k, n.tracker.cooling = some k →
      (∃ before p inventory kept rest, es = before ++ .pass p inventory kept :: rest ∧
        Runs.Since Node.step (fun n : Node α => n.request = some k.request) m before
          (.pass p inventory kept) rest ∧ k.sinceUnix = p.now) ∧
      (k.request = .max ↔ ∃ x ∈ n.tracker.components, x.2.level = .critical) ∧
      (k.request = .auto ↔ (∀ x ∈ n.tracker.components, x.2.level < .near) ∧
        ∀ f ∈ n.tracker.fans, f.problem = none) := by
  intro n
  constructor
  · have first : m.Tells m.log := by
      refine ⟨[], by simp, List.isChain_singleton _, ?_⟩
      rw [Node.request, fresh]
      rfl
    have upTo : ∀ fs, fs <+: es → (Runs.after Node.step m fs).Tells m.log := by
      intro fs
      induction fs using List.reverseRecOn with
      | nil => exact fun _ => first
      | append_singleton fs f ih =>
        intro pre
        rw [Runs.after_append]
        refine (ih ((List.prefix_append fs [f]).trans pre)).step f ?_
        rintro thermal rfl
        exact up thermal (pre.subset (by simp))
    exact upTo es (List.prefix_refl es)
  · intro k stands
    refine ⟨?_, ?_⟩
    · have last : n.request = some k.request := by rw [Node.request, stands, Option.map_some]
      have before : ¬ m.request = some k.request := by
        rw [Node.request, fresh]
        intro held
        cases held
      obtain ⟨before, e, rest, rfl, since⟩ := Runs.exists_since
        (P := fun n : Node α => n.request = some k.request) before es last
      obtain ⟨p, inventory, kept, rfl⟩ := pass_of_requested since
      obtain ⟨k', stands', unix⟩ := sinceUnix_of_requested since
      obtain rfl : k = k' := Option.some.inj (stands.symm.trans stands')
      exact ⟨before, p, inventory, kept, rest, rfl, since, unix⟩
    · have due : n.Due := Runs.keeps Node.due_step
        (fun k none => by rw [fresh] at none; cases none) es
      have request := congrArg Prod.fst (due k stands)
      have most := cooling_max_iff (n.tracker.components.map Prod.snd) n.tracker.fans
      have least := cooling_auto_iff (n.tracker.components.map Prod.snd) n.tracker.fans
      rw [request] at most least
      simp only [List.mem_map, exists_exists_and_eq_and, forall_exists_index, and_imp,
        forall_apply_eq_imp_iff₂] at most least
      exact ⟨most, least⟩

/-- A drive over its critical limit: full speed, since the first pass that saw it. -/
theorem cooling_told_critical :
    let n := Runs.after Node.step ({} : Node ℚ) [.pass (.testFixture 1000 80) (fun _ => true) true]
    n.Tells [] ∧ ∀ k, n.tracker.cooling = some k →
      (k.request = .max ↔ ∃ x ∈ n.tracker.components, x.2.level = .critical) := by
  have told := cooling_told ({} : Node ℚ) rfl [.pass (.testFixture 1000 80) (fun _ => true) true]
    (fun thermal => by simp)
  exact ⟨told.1, fun k stands => (told.2 k stands).2.1⟩

end Thermal

end StormDrive
