import StormDrive.Discovery
import StormDrive.Interleave.Unordered

set_option relaxedAutoImplicit false
set_option autoImplicit false

/-!
# Drives by their handles

Which drive a handle of the API names: a uuid, a kernel name, a path, a serial number or a WWN
(`inventory.rs`, `worker.rs`).

## Main definitions

* `Handles.resolve` — the drive of a handle, in an inventory that is gone through in some order.
* `Handles.NamesOneDrive` — a handle names one drive, and the present one under a name.
* `Handles.OneDrive` — a handle is unambiguous.

## Main results

* `Handles.namesOneDrive_iff` — **a handle names one drive exactly when it is unambiguous**.
* `Handles.present_unique` — no two present drives have the same name or path.
* `Handles.pulled_drive_answers` — a missing drive can answer to the name of a present one.

## Implementation notes

Parsing a uuid is a parameter.
-/

namespace StormDrive

namespace Handles

variable (newV5 : String → Uuid) (parse : String → Option Uuid)

/-! ## Handles -/

/-- The handle is the drive's WWN. -/
def hasWwid (handle : String) (d : Drive) : Bool :=
  d.wwid.any fun w => Text.eqIgnoreAsciiCase w handle

/-- The handle is the drive's kernel name, or one of its paths. -/
def hasName (handle : String) (d : Drive) : Bool :=
  d.name = handle || d.path = handle || d.paths.any (· = handle)

/-- The handle is the drive's serial number. -/
def hasSerial (handle : String) (d : Drive) : Bool := d.serial ≠ "" && d.serial = handle

/-- The kinds of handle, the most specific one first. -/
def kinds (handle : String) : List (Drive → Bool) :=
  [hasWwid handle, hasName handle, hasSerial handle]

/-- The drive of a uuid. -/
def byUuid (inv : Inventory) (handle : String) : Option Drive :=
  (parse handle).bind fun u => inv ⟨u⟩

/-- The drive that a handle names, where the inventory is gone through in this order. -/
def resolve (inv : Inventory) (order : List DriveId) (handle : String) : Option Drive :=
  match byUuid parse inv handle with
  | some d => some d
  | none => Unordered.pickFirst inv order (kinds handle)

/-- One more drive of a selection, unless it is there already; or the handle that names none. -/
def pushNamed (inv : Inventory) (order : List DriveId) (v : List Drive) (handle : String) :
    Except String (List Drive) :=
  match resolve parse inv order handle with
  | none => .error handle
  | some d => .ok (if v.any fun x => x.id = d.id then v else v ++ [d])

/-- The drives that a selection names, each once; or the first handle that names none. -/
def named (inv : Inventory) (order : List DriveId) (handles : List String) :
    Except String (List Drive) :=
  handles.foldlM (pushNamed parse inv order) []

/-- The inventory after some passes. -/
def discovered (passes : List (List Observed)) : Inventory :=
  passes.foldl (mergeObserved newV5) fun _ => none

/-! ## One drive -/

/-- **A handle names one drive**: the same in every order, and if it is the name or a path of a
present drive, that one. -/
structure NamesOneDrive (inv : Inventory) (handle : String) : Prop where
  same : ∀ order order', Unordered.Order inv order → Unordered.Order inv order' →
    resolve parse inv order handle = resolve parse inv order' handle
  present : ∀ id d order, inv id = some d → d.activity ≠ .missing → hasName handle d →
    Unordered.Order inv order → resolve parse inv order handle = some d

/-- **A handle is unambiguous**: of the first kind of handle that some drive has, missing drives
included, one drive has it; and a present drive with that name is not behind another one with that
uuid or WWN. -/
structure OneDrive (inv : Inventory) (handle : String) : Prop where
  uuid : ∀ u, byUuid parse inv handle = some u →
    ∀ id d, inv id = some d → d.activity ≠ .missing → hasName handle d → d = u
  unambiguous : byUuid parse inv handle = none → Unordered.Unambiguous inv (kinds handle)
  wwid : byUuid parse inv handle = none → ∀ id d id' d', inv id = some d →
    d.activity ≠ .missing → hasName handle d → inv id' = some d' → hasWwid handle d' → d = d'

/-! ## Passes -/

section Passes

variable {newV5 parse} {inv : Inventory} {observed : List Observed}

/-- A drive has a group exactly when one of its nodes was seen. -/
lemma groupOf_eq_nil_iff {id : DriveId} :
    groupOf newV5 observed id = [] ↔ id ∉ observed.map (Observed.id newV5) := by
  rw [List.mem_map, List.eq_nil_iff_forall_not_mem]
  simp [groupOf, List.mem_insertionSort]

/-- The drives of an inventory after a pass are those before, and those that the pass saw. -/
lemma order_mergeObserved {order : List DriveId} (h : Unordered.Order inv order) :
    Unordered.Order (mergeObserved newV5 inv observed)
      (order ++ observed.map (Observed.id newV5)).dedup := by
  refine ⟨List.nodup_dedup _, fun id => ?_⟩
  rw [List.mem_dedup, List.mem_append, h.mem, mergeObserved_apply]
  split
  · rename_i unseen
    rw [Option.isSome_map]
    exact or_iff_left (groupOf_eq_nil_iff.mp unseen)
  · rename_i primary rest seen
    have mem : id ∈ observed.map (Observed.id newV5) := by
      by_contra unseen
      exact List.cons_ne_nil _ _ (seen.symm.trans (groupOf_eq_nil_iff.mpr unseen))
    exact iff_of_true (.inr mem) rfl

/-- The drives that some passes found have an order. -/
lemma exists_order (passes : List (List Observed)) :
    ∃ order, Unordered.Order (discovered newV5 passes) order := by
  induction passes using List.reverseRecOn with
  | nil => exact ⟨[], List.nodup_nil, fun id => by simp [discovered]⟩
  | append_singleton passes observed ih =>
    obtain ⟨order, h⟩ := ih
    rw [discovered, List.foldl_append]
    exact ⟨_, order_mergeObserved h⟩

/-- A present drive was seen by the last pass, under its name and its paths. -/
lemma seen_of_present {id : DriveId} {d : Drive}
    (entry : mergeObserved newV5 inv observed id = some d) (present : d.activity ≠ .missing) :
    ∃ primary rest, groupOf newV5 observed id = primary :: rest ∧ d.name = primary.name ∧
      d.path = primary.path ∧ d.paths = (primary :: rest).map Observed.path := by
  rw [mergeObserved_apply] at entry
  split at entry
  · obtain ⟨old, -, rfl⟩ := Option.map_eq_some_iff.mp entry
    refine absurd ?_ present
    rw [Drive.unseen]
    split_ifs with missing
    · rfl
    · exact not_not.mp missing
  · rename_i primary rest seen
    refine ⟨primary, rest, seen, ?_⟩
    obtain rfl := Option.some.inj entry
    cases inv id with
    | none => exact ⟨rfl, rfl, rfl⟩
    | some old =>
      dsimp only
      rw [Drive.refreshed]
      dsimp only
      split_ifs <;> exact ⟨rfl, rfl, rfl⟩

end Passes

/-! ## When a handle names one drive -/

section Named

variable {newV5 parse} {inv : Inventory} {handle : String}

/-- Without a drive of that uuid a handle is looked for by its kinds. -/
lemma resolve_of_none (none_ : byUuid parse inv handle = none) (order : List DriveId) :
    resolve parse inv order handle = Unordered.pickFirst inv order (kinds handle) := by
  rw [resolve, none_]

lemma resolve_of_some {u : Drive} (some_ : byUuid parse inv handle = some u)
    (order : List DriveId) : resolve parse inv order handle = some u := by
  rw [resolve, some_]

/-- The drive with that WWN is found first, where its identity comes first. -/
lemma pickFirst_of_wwid {id : DriveId} {d : Drive} {order : List DriveId} (entry : inv id = some d)
    (kind : hasWwid handle d) :
    Unordered.pickFirst inv (id :: order) (kinds handle) = some d := by
  rw [kinds, Unordered.pickFirst_cons, Unordered.pick_first entry kind]

/-- A present drive is found under its name, where the handle is unambiguous. -/
lemma OneDrive.pickFirst (h : OneDrive parse inv handle) (none_ : byUuid parse inv handle = none)
    {id : DriveId} {d : Drive} {order : List DriveId} (entry : inv id = some d)
    (present : d.activity ≠ .missing) (name : hasName handle d)
    (listed : Unordered.Order inv order) :
    Unordered.pickFirst inv order (kinds handle) = some d := by
  rw [kinds, Unordered.pickFirst_cons]
  cases found : Unordered.pick inv order (hasWwid handle) with
  | some d' =>
    obtain ⟨id', entry', kind⟩ := Unordered.pick_spec found
    rw [h.wwid none_ id d id' d' entry present name entry' kind]
  | none =>
    have unmatched := (Unordered.pick_eq_none_iff listed).mp found
    have unique := ((h.unambiguous none_).2 unmatched).1 ⟨id, d, entry, name⟩
    rw [Unordered.pickFirst_cons, Unordered.pick_of_unique listed unique entry name]

/-- **A handle names one drive exactly when it is unambiguous**, in an inventory that can be gone
through. -/
lemma namesOneDrive_iff_of_order (some_order : ∃ order, Unordered.Order inv order) :
    NamesOneDrive parse inv handle ↔ OneDrive parse inv handle := by
  constructor
  · intro names
    obtain ⟨order, listed⟩ := some_order
    refine ⟨fun u some_ id d entry present name => ?_, fun none_ => ?_,
      fun none_ id d id' d' entry present name entry' kind => ?_⟩
    · have found := names.present id d order entry present name listed
      rw [resolve_of_some some_] at found
      exact (Option.some.inj found).symm
    · rw [← Unordered.pickFirst_same_iff ⟨order, listed⟩]
      intro ks ks' listed listed'
      rw [← resolve_of_none none_, ← resolve_of_none none_]
      exact names.same ks ks' listed listed'
    · obtain ⟨rest, first⟩ := listed.exists_first entry'
      have found := names.present id d _ entry present name first
      rw [resolve_of_none none_, pickFirst_of_wwid entry' kind] at found
      exact (Option.some.inj found).symm
  · intro one
    cases uuid : byUuid parse inv handle with
    | some u =>
      refine ⟨fun order order' _ _ => ?_, fun id d order entry present name _ => ?_⟩
      · rw [resolve_of_some uuid, resolve_of_some uuid]
      · rw [resolve_of_some uuid, one.uuid u uuid id d entry present name]
    | none =>
      refine ⟨fun order order' listed listed' => ?_, fun id d order entry present name listed => ?_⟩
      · rw [resolve_of_none uuid, resolve_of_none uuid]
        exact (Unordered.pickFirst_same_iff some_order).mpr (one.unambiguous uuid) _ _ listed
          listed'
      · rw [resolve_of_none uuid]
        exact one.pickFirst uuid entry present name listed

/-- **What a selection names does not depend on the order**, where its handles are unambiguous. -/
theorem named_same {handles : List String} (one : ∀ h ∈ handles, OneDrive parse inv h)
    {order order' : List DriveId} (listed : Unordered.Order inv order)
    (listed' : Unordered.Order inv order') :
    named parse inv order handles = named parse inv order' handles := by
  have all : ∀ v, handles.foldlM (pushNamed parse inv order) v =
      handles.foldlM (pushNamed parse inv order') v := by
    induction handles with
    | nil => exact fun v => rfl
    | cons h handles ih =>
      intro v
      obtain ⟨first, rest⟩ := List.forall_mem_cons.mp one
      have same : pushNamed parse inv order v h = pushNamed parse inv order' v h := by
        rw [pushNamed, pushNamed, ((namesOneDrive_iff_of_order ⟨order, listed⟩).mpr first).same _ _
          listed listed']
      rw [List.foldlM_cons, List.foldlM_cons, same]
      cases pushNamed parse inv order' v h with
      | error e => rfl
      | ok v' => exact ih rest v'
  exact all []

end Named

/-- **A handle names one drive exactly when it is unambiguous**, after any passes.

**Proof sketch.** A uuid is looked up. Of the kinds of handle the first that some drive has decides,
and the drives that have it are found in some order each; so there must be one. A present drive with
that name is found then, unless another one is found before by its uuid or its WWN. -/
theorem namesOneDrive_iff (passes : List (List Observed)) (handle : String) :
    NamesOneDrive parse (discovered newV5 passes) handle ↔
      OneDrive parse (discovered newV5 passes) handle :=
  namesOneDrive_iff_of_order (exists_order passes)

/-! ## Present drives -/

/-- A pass of the scan: block devices with kernel names, each once. -/
structure Pass where
  mounts : String
  cfg : DiscoveryConfig
  devices : List BlockDevice
  nodup : (devices.map BlockDevice.name).Nodup
  plain : ∀ b ∈ devices, '/' ∉ b.name.toList

def Pass.observed (pass : Pass) : List Observed := scanIn pass.mounts pass.cfg pass.devices

section Present

variable {newV5} {inv : Inventory} {pass : Pass}

/-- What a pass saw under a name or a path is one node. -/
lemma Pass.same_node {o o' : Observed} {handle : String} (mem : o ∈ pass.observed)
    (mem' : o' ∈ pass.observed) (h : o.name = handle ∨ o.path = handle)
    (h' : o'.name = handle ∨ o'.path = handle) : o = o' := by
  obtain ⟨b, there, rfl⟩ := List.mem_map.mp mem
  obtain ⟨b', there', rfl⟩ := List.mem_map.mp mem'
  have listed := (List.mem_filter.mp there).1
  have listed' := (List.mem_filter.mp there').1
  have slash : ∀ name : String, '/' ∈ (devPath name).toList := by
    intro name
    rw [devPath, String.toList_append]
    exact List.mem_append_left _ (by decide)
  have names : b.name = b'.name := by
    obtain same | same := h
    · obtain same' | same' := h'
      · exact same.trans same'.symm
      · refine absurd ?_ (pass.plain b listed)
        have path : b.name = devPath b'.name := same.trans same'.symm
        rw [path]
        exact slash _
    · obtain same' | same' := h'
      · refine absurd ?_ (pass.plain b' listed')
        have path : b'.name = devPath b.name := same'.trans same.symm
        rw [path]
        exact slash _
      · have paths : devPath b.name = devPath b'.name := same.trans same'.symm
        rw [devPath, devPath] at paths
        have chars := congrArg String.toList paths
        rw [String.toList_append, String.toList_append] at chars
        exact String.toList_inj.mp (List.append_cancel_left chars)
  rw [List.inj_on_of_nodup_map pass.nodup listed listed' names]

/-- **No two present drives have the same name or path**, after a pass of the scan: where a handle
is the name of two drives, one is missing. -/
theorem present_unique {handle : String} {id id' : DriveId} {d d' : Drive}
    (entry : mergeObserved newV5 inv pass.observed id = some d)
    (entry' : mergeObserved newV5 inv pass.observed id' = some d')
    (present : d.activity ≠ .missing) (present' : d'.activity ≠ .missing)
    (name : hasName handle d) (name' : hasName handle d') : id = id' := by
  have node : ∀ {id : DriveId} {d : Drive}, mergeObserved newV5 inv pass.observed id = some d →
      d.activity ≠ .missing → hasName handle d →
      ∃ o ∈ pass.observed, o.id newV5 = id ∧ (o.name = handle ∨ o.path = handle) := by
    intro id d entry present name
    obtain ⟨primary, rest, seen, called, path, paths⟩ := seen_of_present entry present
    have group : ∀ o ∈ primary :: rest, o ∈ pass.observed ∧ o.id newV5 = id := by
      intro o mem
      rw [← seen, groupOf, List.mem_insertionSort, List.mem_filter] at mem
      exact ⟨mem.1, of_decide_eq_true mem.2⟩
    obtain ⟨mem, same⟩ := group primary List.mem_cons_self
    rw [hasName, called, path, paths] at name
    simp only [Bool.or_eq_true, decide_eq_true_eq, List.any_map, List.any_eq_true] at name
    obtain (name | name) | ⟨o, there, name⟩ := name
    · exact ⟨primary, mem, same, .inl name⟩
    · exact ⟨primary, mem, same, .inr name⟩
    · obtain ⟨mem, same⟩ := group o there
      exact ⟨o, mem, same, .inr (of_decide_eq_true name)⟩
  obtain ⟨o, mem, rfl, h⟩ := node entry present name
  obtain ⟨o', mem', rfl, h'⟩ := node entry' present' name'
  rw [Pass.same_node mem mem' h h']

end Present

/-! ## A pulled drive that answers to a name -/

/-- A disk under the name `sda`. -/
def seenDisk (wwid : String) : Observed where
  name := "sda"
  path := "/dev/sda"
  kind := .sasHdd
  model := "M"
  serial := wwid
  wwid := some wwid
  capacityBytes := 1000
  blockSize := 512
  physicalBlockSize := 512
  usable := true
  inUseBy := none
  contents := none
  slabs := []
  mounted := false
  supports := none
  location := {}

/-- Identities by the length of the key. -/
def byLength (key : String) : Uuid := ⟨BitVec.ofNat 128 key.toList.length⟩

/-- A disk is pulled, and another one takes its name. -/
def swapped : List (List Observed) := [[seenDisk "naa.5"], [seenDisk "naa.50"]]

/-- **A pulled drive answers to the name of the one in its place**: both are known under `sda`, and
in one order the missing one is found. -/
theorem pulled_drive_answers :
    ¬ NamesOneDrive (fun _ => none) (discovered byLength swapped) "sda" := by
  intro names
  have nothing : Unordered.Order (fun _ => none : Inventory) [] :=
    ⟨List.nodup_nil, fun id => iff_of_false List.not_mem_nil Bool.false_ne_true⟩
  have listed : Unordered.Order (discovered byLength swapped) _ :=
    order_mergeObserved (order_mergeObserved nothing)
  have known : (discovered byLength swapped ⟨byLength "naa.50"⟩).any fun d =>
      decide (d.activity ≠ .missing) && hasName "sda" d := by
    decide +kernel
  obtain ⟨d, entry, there⟩ := (Option.any_eq_true _ _).mp known
  obtain ⟨present, name⟩ := Bool.and_eq_true_iff.mp there
  have found := names.present _ d _ entry (of_decide_eq_true present) name listed
  have missing : (resolve (fun _ => none) (discovered byLength swapped)
      ((([] ++ [seenDisk "naa.5"].map (Observed.id byLength)).dedup ++
        [seenDisk "naa.50"].map (Observed.id byLength)).dedup) "sda").map Drive.activity =
      some .missing := by
    decide +kernel
  rw [found] at missing
  exact of_decide_eq_true present (Option.some.inj missing)

end Handles

end StormDrive
