import StormDrive.Discovery
import StormDrive.Interleave.Mirror
import StormDrive.Interleave.Runs
import StormDrive.OrderedMap
import StormDrive.SystemFile

set_option relaxedAutoImplicit false
set_option autoImplicit false

/-!
# Lists and watches

The drives and enclosures are listed, and watched: a watch polls the collection and tells what is
different (`list_or_watch` of `api/kube.rs`).

## Main definitions

* `Watch.Resource`, `Watch.Collection` — an object, and the objects there are.
* `Watch.selected` — does a label selector take an object?
* `Watch.start`, `Watch.poll` — a watch with the copy that a client keeps of what it is told.
* `Watch.Current` — the client has exactly what a list would return.
* `Watch.Converges` — what a client has, whether it began with nothing or with a list.

## Main results

* `Watch.converges` — **a client that begins with nothing is current after every poll, one that
  begins with a list exactly when all it listed is still there when the watch begins**.
* `Watch.stale_of_list` — otherwise it keeps what is not there any more.

## Implementation notes

Of an object the name and the labels are apart from the rest, of which nothing is read. A
fingerprint is a function of the object. What is assumed of it, for the objects that a watch sees,
is that it tells two versions of an object from each other.
-/

namespace StormDrive

namespace Watch

open Mirror

variable {β : Type}

/-! ## Objects -/

/-- An object: its name, its labels, and the rest. -/
structure Resource (β : Type) where
  name : String
  /-- In the order of the keys. -/
  labels : List (String × String)
  body : β
  deriving DecidableEq

/-- The objects of a kind, each with a name of its own. -/
structure Collection (β : Type) where
  items : List (Resource β)
  distinct : (items.map Resource.name).Nodup

/-- The labels of a drive. -/
def driveLabels (node : String) (kind : DriveKind → String) (d : Drive) : List (String × String) :=
  OrderedMap.ofList
    ([("storm.io/component", "stormdrive"), ("storm.io/node", node), ("storm.io/path", d.path),
      ("storm.io/kind", kind d.kind)] ++
      d.location.labels.map fun l => ("storm.io/" ++ l.1, l.2))

/-- The enclosures by their keys. -/
def allEnclosures (node : String) (shelves : List (String × β))
    (keys : OrderedMap.Increasing shelves) : Collection β where
  items := shelves.map fun s =>
    ⟨s.1, OrderedMap.ofList [("storm.io/component", "stormdrive"), ("storm.io/node", node),
      ("storm.io/shelf", s.1)], s.2⟩
  distinct := by
    rw [List.map_map]
    exact List.pairwise_map.mpr (keys.imp fun less => less.ne)

/-! ## Lists and watches -/

/-- One part of a selector: a label with a value, or a label. -/
def fits (labels : List (String × String)) (pair : List Char) : Bool :=
  match splitOnce '=' pair with
  | some (k, v) =>
    OrderedMap.get labels (Text.trim (String.ofList k)) = some (Text.trim (String.ofList v))
  | none => (OrderedMap.get labels (Text.trim (String.ofList pair))).isSome

/-- Does a label selector take an object? -/
def selected (selector : Option String) (item : Resource β) : Bool :=
  match selector with
  | none => true
  | some sel =>
    ((sel.toList.splitOn ',').filter fun s => Text.trim (String.ofList s) ≠ "").all
      (fits item.labels)

/-- What a list returns. -/
def Collection.list (selector : Option String) (c : Collection β) : List (Resource β) :=
  c.items.filter (selected selector)

/-- A watch, and the copy of the client. -/
structure Watching (β : Type) where
  /-- The fingerprints by name. -/
  seen : List (String × UInt64)
  /-- What a list would return. -/
  now : List (Resource β)
  held : String → Option (Resource β)

variable (print : Resource β → UInt64) (selector : Option String)

/-- The fingerprints of the objects, by name. -/
def present (l : List (Resource β)) : List (String × UInt64) :=
  OrderedMap.ofList (l.map fun it => (it.name, print it))

/-- The events of a poll. -/
def events (seen : List (String × UInt64)) (now : List (Resource β)) :
    List (Note String (Resource β)) :=
  news Resource.name print (OrderedMap.get seen) now ++
    gone Resource.name (seen.map Prod.fst) now

/-- A watch begins: every object is new. -/
def start (held : String → Option (Resource β)) (c : Collection β) : Watching β :=
  let items := c.list selector
  ⟨present print items, items, follow Resource.name held (items.map .added)⟩

/-- A watch polls. -/
def poll (w : Watching β) (c : Collection β) : Watching β :=
  let now := c.list selector
  ⟨present print now, now, follow Resource.name w.held (events print w.seen now)⟩

/-! ## What is promised -/

/-- The client has exactly what a list would return. -/
def Current (w : Watching β) : Prop :=
  ∀ name it, w.held name = some it ↔ it ∈ w.now ∧ it.name = name

/-- The events of a poll are what came, what is different and what went. -/
structure Tells (was now : List (Resource β)) (told : List (Note String (Resource β))) : Prop where
  added : ∀ it, .added it ∈ told ↔ it ∈ now ∧ it.name ∉ was.map Resource.name
  modified : ∀ it, .modified it ∈ told ↔ it ∈ now ∧ ∃ old ∈ was, old.name = it.name ∧ old ≠ it
  deleted : ∀ name, .deleted name ∈ told ↔
    name ∈ was.map Resource.name ∧ name ∉ now.map Resource.name

/-- A client that begins with nothing. -/
def fromNothing (first : Collection β) : Watching β := start print selector (fun _ => none) first

/-- A client that begins with what it listed. -/
def fromList (listed first : Collection β) : Watching β :=
  start print selector (index Resource.name (listed.list selector)) first

/-- **What a client has**, of a watch that sees the collection `first` and then those of its
polls. -/
structure Converges (listed first : Collection β) (polls : List (Collection β)) : Prop where
  nothing : Runs.Throughout (poll print selector) Current (fromNothing print selector first) polls
  told : Runs.Each (poll print selector)
    (fun w c => Tells w.now (c.list selector) (events print w.seen (c.list selector)))
    (fromNothing print selector first) polls
  /-- A client that listed keeps, beside what there is, what it listed and the watch never saw. -/
  beside : ∀ name, (Runs.after (poll print selector)
      (fromList print selector listed first) polls).held name =
    (index Resource.name (Runs.after (poll print selector)
        (fromList print selector listed first) polls).now name).or
      (if ∃ c ∈ first :: polls, name ∈ (c.list selector).map Resource.name then none
        else index Resource.name (listed.list selector) name)
  /-- So it is current exactly when all it listed is there when the watch begins. -/
  current : Runs.Throughout (poll print selector) Current
      (fromList print selector listed first) polls ↔
    ∀ it ∈ listed.list selector, it.name ∈ (first.list selector).map Resource.name

/-- Two versions of an object that a watch sees have two fingerprints. -/
def Apart (cs : List (Collection β)) : Prop :=
  ∀ c ∈ cs, ∀ c' ∈ cs, ∀ v ∈ c.items, ∀ w ∈ c'.items,
    v.name = w.name → print v = print w → v = w

/-! ## One poll -/

section Poll

variable {print selector}

lemma Collection.distinct_list (c : Collection β) :
    ((c.list selector).map Resource.name).Nodup :=
  c.distinct.sublist (List.filter_sublist.map _)

/-- The fingerprints are found by name. -/
lemma get_present {l : List (Resource β)} (distinct : (l.map Resource.name).Nodup) (name : String) :
    OrderedMap.get (present print l) name = (index Resource.name l name).map print := by
  refine Option.ext fun p => ?_
  rw [present, (OrderedMap.increasing_ofList _).get_eq_some_iff, Option.map_eq_some_iff]
  constructor
  · intro mem
    obtain ⟨it, hit, same⟩ := List.mem_map.mp (OrderedMap.mem_of_mem_ofList mem)
    obtain ⟨rfl, rfl⟩ := Prod.mk.inj same
    exact ⟨it, (index_eq_some_iff distinct).mpr ⟨hit, rfl⟩, rfl⟩
  · rintro ⟨it, found, rfl⟩
    obtain ⟨mem, rfl⟩ := (index_eq_some_iff distinct).mp found
    obtain ⟨p, hp⟩ := OrderedMap.exists_mem_ofList
      (List.mem_map_of_mem (f := fun it => (it.name, print it)) mem)
    obtain ⟨other, hother, same⟩ := List.mem_map.mp (OrderedMap.mem_of_mem_ofList hp)
    obtain ⟨names, rfl⟩ := Prod.mk.inj same
    obtain rfl := List.inj_on_of_nodup_map distinct hother mem names
    exact hp

lemma mem_present_keys {l : List (Resource β)} (name : String) :
    name ∈ (present print l).map Prod.fst ↔ name ∈ l.map Resource.name := by
  constructor
  · intro mem
    obtain ⟨x, hx, rfl⟩ := List.mem_map.mp mem
    obtain ⟨it, hit, rfl⟩ := List.mem_map.mp (OrderedMap.mem_of_mem_ofList hx)
    exact List.mem_map_of_mem hit
  · intro mem
    obtain ⟨it, hit, rfl⟩ := List.mem_map.mp mem
    obtain ⟨p, hp⟩ := OrderedMap.exists_mem_ofList
      (List.mem_map_of_mem (f := fun it => (it.name, print it)) hit)
    exact List.mem_map.mpr ⟨_, hp, rfl⟩

variable (print) in
/-- The watch knows what it saw last. -/
structure Knows (w : Watching β) : Prop where
  distinct : (w.now.map Resource.name).Nodup
  seen : w.seen = present print w.now

lemma knows_poll (w : Watching β) (c : Collection β) : Knows print (poll print selector w c) :=
  ⟨c.distinct_list, rfl⟩

lemma knows_start (held : String → Option (Resource β)) (c : Collection β) :
    Knows print (start print selector held c) :=
  ⟨c.distinct_list, rfl⟩

variable {w : Watching β} {c : Collection β}

lemma Knows.get_seen (h : Knows print w) (name : String) :
    OrderedMap.get w.seen name = (index Resource.name w.now name).map print := by
  rw [h.seen, get_present h.distinct]

lemma Knows.mem_seen (h : Knows print w) (name : String) :
    name ∈ w.seen.map Prod.fst ↔ name ∈ w.now.map Resource.name := by
  rw [h.seen, mem_present_keys]

variable (print) in
/-- The versions that two polls see of an object have two fingerprints. -/
def Differ (was now : List (Resource β)) : Prop :=
  ∀ v ∈ was, ∀ x ∈ now, v.name = x.name → print v = print x → v = x

/-- What a client has after a watch began. -/
lemma held_start (held : String → Option (Resource β)) (c : Collection β) (name : String) :
    (start print selector held c).held name =
      (index Resource.name (c.list selector) name).or (held name) := by
  have all : follow Resource.name held
      (news Resource.name print (fun _ => none) (c.list selector) ++
        gone Resource.name [] (c.list selector)) name =
      (index Resource.name (c.list selector) name).or
        (if name ∈ ([] : List (Resource β)).map Resource.name then none else held name) :=
    follow_diff c.distinct_list (fun k => rfl) (fun k => Iff.rfl)
      (fun v mem => absurd mem List.not_mem_nil) (fun k => rfl) name
  rw [news_none, gone, List.filter_nil, List.map_nil, List.append_nil, List.map_nil,
    if_neg List.not_mem_nil] at all
  exact all

/-- And after a poll. -/
lemma Knows.held_poll (h : Knows print w) (differ : Differ print w.now (c.list selector))
    {beside : String → Option (Resource β)}
    (held : ∀ name, w.held name = (index Resource.name w.now name).or (beside name))
    (name : String) :
    (poll print selector w c).held name = (index Resource.name (c.list selector) name).or
      (if name ∈ w.now.map Resource.name then none else beside name) :=
  follow_diff c.distinct_list h.get_seen h.mem_seen differ held name

/-- The events are those of the collections. -/
lemma Knows.tells (h : Knows print w) (differ : Differ print w.now (c.list selector)) :
    Tells w.now (c.list selector) (events print w.seen (c.list selector)) where
  added it := by
    rw [events, added_mem_iff, h.get_seen, Option.map_eq_none_iff, index_eq_none_iff]
  modified it := by
    rw [events, modified_mem_iff, h.get_seen]
    refine and_congr_right fun mem => ⟨?_, ?_⟩
    · rintro ⟨p, known, differs⟩
      obtain ⟨old, found, rfl⟩ := Option.map_eq_some_iff.mp known
      obtain ⟨was, name⟩ := (index_eq_some_iff h.distinct).mp found
      refine ⟨old, was, name, ?_⟩
      rintro rfl
      exact differs rfl
    · rintro ⟨old, was, name, other⟩
      refine ⟨print old, ?_, fun same => other (differ old was it mem name same)⟩
      rw [(index_eq_some_iff h.distinct).mpr ⟨was, name⟩, Option.map_some]
  deleted name := by
    rw [events, deleted_mem_iff, h.mem_seen]

end Poll

/-! ## Every run -/

section Run

variable {print selector}

/-- No poll of a run confuses two versions of an object. -/
lemma each_differ {polls : List (Collection β)} {first : Collection β} {w : Watching β}
    (now : w.now = first.list selector) (apart : Apart print (first :: polls)) :
    Runs.Each (poll print selector) (fun w c => Differ print w.now (c.list selector)) w polls := by
  induction polls generalizing first w with
  | nil => trivial
  | cons c polls ih =>
    have now' : (poll print selector w c).now = c.list selector := rfl
    have apart' : Apart print (c :: polls) := fun d hd d' hd' =>
      apart d (List.mem_cons_of_mem _ hd) d' (List.mem_cons_of_mem _ hd')
    refine ⟨?_, ih now' apart'⟩
    intro v hv x hx
    rw [now] at hv
    exact apart first List.mem_cons_self c (List.mem_cons_of_mem _ List.mem_cons_self) v
      (List.mem_filter.mp hv).1 x (List.mem_filter.mp hx).1

/-- What a client has after a run: what there is, and what it began with beside all it was told. -/
lemma held_after {polls : List (Collection β)} {w : Watching β} (knows : Knows print w)
    (differ : Runs.Each (poll print selector) (fun w c => Differ print w.now (c.list selector)) w
      polls) {beside : String → Option (Resource β)}
    (held : ∀ name, w.held name = (index Resource.name w.now name).or (beside name))
    (name : String) :
    (Runs.after (poll print selector) w polls).held name =
      (index Resource.name (Runs.after (poll print selector) w polls).now name).or
        (if name ∈ w.now.map Resource.name ∨
            ∃ c ∈ polls, name ∈ (c.list selector).map Resource.name then none
          else beside name) := by
  induction polls generalizing w beside with
  | nil =>
    rw [Runs.after_nil, held]
    by_cases mem : name ∈ w.now.map Resource.name
    · cases found : index Resource.name w.now name with
      | none => exact absurd mem (index_eq_none_iff.mp found)
      | some it => rfl
    · rw [if_neg]
      rintro (here | ⟨c, hc, -⟩)
      · exact mem here
      · exact absurd hc List.not_mem_nil
  | cons c polls ih =>
    rw [Runs.after_cons, ih (knows_poll w c) differ.2 (knows.held_poll differ.1 held)]
    congr 1
    rw [← ite_or]
    refine if_congr ?_ rfl rfl
    rw [List.exists_mem_cons_iff]
    exact or_comm

variable (print) in
/-- The client has a copy of the collection that the watch knows. -/
structure Copied (w : Watching β) : Prop where
  knows : Knows print w
  held : ∀ name, w.held name = index Resource.name w.now name

lemma Copied.current {w : Watching β} (h : Copied print w) : Current w := by
  intro name it
  rw [h.held, index_eq_some_iff h.knows.distinct]

/-- A poll gives it a copy of the next. -/
lemma Copied.poll {w : Watching β} {c : Collection β} (h : Copied print w)
    (differ : Differ print w.now (c.list selector)) : Copied print (poll print selector w c) := by
  have held : ∀ name, w.held name = (index Resource.name w.now name).or none := by
    simpa using h.held
  refine ⟨knows_poll w c, fun name => ?_⟩
  rw [h.knows.held_poll differ held, ite_self, Option.or_none]
  rfl

/-- A client that is current stays so. -/
lemma Copied.throughout {polls : List (Collection β)} {w : Watching β} (h : Copied print w)
    (differ : Runs.Each (Watch.poll print selector)
      (fun w c => Differ print w.now (c.list selector)) w polls) :
    Runs.Throughout (Watch.poll print selector) Current w polls :=
  (Runs.throughout_of_each (fun _ _ copied apart => copied.poll apart) h differ).mono
    fun _ => Copied.current

end Run

/-- **What a client has of a watch.**

**Proof sketch.** A poll takes a copy of the collection that was seen last to one of the next
(`Knows.held_poll`), and what the client held beside it stays until the collection has its name. A
client that begins with a list holds such a thing from the start, or never. -/
theorem converges (print : Resource β → UInt64) (selector : Option String)
    (listed first : Collection β) (polls : List (Collection β))
    (apart : Apart print (first :: polls)) : Converges print selector listed first polls where
  nothing := by
    refine Copied.throughout ⟨knows_start _ first, fun name => ?_⟩ (each_differ rfl apart)
    rw [fromNothing, held_start, Option.or_none]
    rfl
  told := Runs.each_of_each (fun w c _ _ => knows_poll w c) (fun w c h differ => h.tells differ)
    (knows_start _ first) (each_differ rfl apart)
  beside name := by
    rw [fromList, held_after (knows_start _ first) (each_differ rfl apart) (held_start _ first)]
    congr 1
    refine if_congr ?_ rfl rfl
    rw [List.exists_mem_cons_iff]
    rfl
  current := by
    constructor
    · intro always it mem
      by_contra out
      have current := always.first
      have found := (index_eq_some_iff listed.distinct_list).mpr ⟨mem, rfl⟩
      have held : (fromList print selector listed first).held it.name = some it := by
        rw [fromList, held_start, index_eq_none_iff.mpr out, Option.none_or, found]
      have there := (current it.name it).mp held
      exact out (List.mem_map_of_mem there.1)
    · intro all
      refine Copied.throughout ⟨knows_start _ first, fun name => ?_⟩ (each_differ rfl apart)
      rw [fromList, held_start]
      cases found : index Resource.name (listed.list selector) name with
      | none => exact Option.or_none
      | some it =>
        have there := all it (mem_of_index found)
        rw [key_of_index found] at there
        cases here : index Resource.name (first.list selector) name with
        | none => exact absurd there (index_eq_none_iff.mp here)
        | some other => exact here.symm

/-! ## A drive that goes away -/

/-- One drive, and none. -/
def oneDrive (usable : Bool) : Collection Bool := ⟨[⟨"sda", [], usable⟩], List.nodup_singleton _⟩

def noDrive : Collection Bool := ⟨[], List.nodup_nil⟩

/-- A fingerprint that tells the versions of this drive from each other. -/
def usablePrint (it : Resource Bool) : UInt64 := if it.body then 1 else 0

theorem converges_oneDrive :
    Converges usablePrint none (oneDrive true) (oneDrive true) [oneDrive false, noDrive] := by
  refine converges usablePrint none (oneDrive true) (oneDrive true) [oneDrive false, noDrive] ?_
  unfold Apart
  decide

/-- **A client keeps what went between its list and its watch.** -/
theorem stale_of_list : Apart usablePrint [noDrive] ∧
    ¬ Runs.Throughout (poll usablePrint none) Current
      (fromList usablePrint none (oneDrive true) noDrive) [] := by
  refine ⟨by unfold Apart; decide, fun current => ?_⟩
  have there := (current "sda" ⟨"sda", [], true⟩).mp (by decide)
  exact absurd there.1 List.not_mem_nil

end Watch

end StormDrive
