import StormDrive.ShelfConditions

set_option relaxedAutoImplicit false
set_option autoImplicit false

/-!
# What is told of the conditions of a shelf

Each change of a condition is told once, in every run of the passes of `StormDrive.ShelfConditions`
whose steps are clean.

## Main definitions

* `Place`, `Shelf.At` — what a pass does with a shelf, and what is so of the shelf meanwhile.
* `Inv` — what runs keep.

## Main results

* `tellsOnce_of_clean` — **a run of clean steps tells each change once**, and the time of a
  condition moves with what is told.
* `told_again` — a status write that fails has its change told again.
-/

namespace StormDrive

namespace ShelfConditions

/-! ## What runs keep -/

section Invariant

variable {σ : Type} {x : Shelf σ} {w : Work σ} {u : ℕ} {k : Kind}

namespace Shelf

/-- An object shows what was last read for it. -/
def Agrees (x : Shelf σ) (u : ℕ) (l : List Shown) : Prop := ∀ k, shows l k = x.last u k

/-- No reading was for an object. -/
def Unseen (x : Shelf σ) (u : ℕ) : Prop := ∀ e ∈ x.seen, e.1 ≠ u

/-- Since there was an object with some conditions, if there was one, it has them still, or another
new one took its place. -/
def Since (x : Shelf σ) (ref : Option (ℕ × List Shown)) : Prop :=
  ∀ o, x.object = some o → ref = some (o.uid, o.conditions) ∨
    (o.conditions = [] ∧ x.Unseen o.uid ∧ ∀ l, ref ≠ some (o.uid, l))

/-- What numbers were used. -/
structure Numbered (x : Shelf σ) : Prop where
  object : ∀ o, x.object = some o → o.uid < x.made
  seen : ∀ e ∈ x.seen, e.1 < x.made

end Shelf

/-- What a pass does with a shelf: nothing; it listed its object, or none; it told of the object
what it read, and has not written that. -/
inductive Place
  | free
  | listed (ref : Option (ℕ × List Shown))
  | told (u : ℕ) (l : List Shown) (r : Reading)

/-- What is so of a shelf, by what a pass does with it. -/
def Shelf.At (x : Shelf σ) : Place → Prop
  | .free => ∀ o, x.object = some o → x.Agrees o.uid o.conditions
  | .listed ref => x.Since ref ∧ ∀ u l, ref = some (u, l) → x.Agrees u l ∧ u < x.made
  | .told u l r => x.Since (some (u, l)) ∧ (∀ k, x.last u k = (r k).status) ∧ u < x.made

/-- Where a shelf is that is not at hand. -/
def waiting (listed : String → Option Object) (todo : List (String × Report σ)) (key : String) :
    Place :=
  if key ∈ todo.map Prod.fst then .listed ((listed key).map fun o => (o.uid, o.conditions))
  else .free

/-- What a pass does with a shelf. -/
def Pass.place : Pass σ → String → Place
  | .idle, _ => .free
  | .shelves listed _ todo, key => waiting listed todo key
  | .telling w, key =>
    if key = w.key then .listed (some (w.target, w.previous)) else waiting w.listed w.todo key
  | .labelling w, key =>
    if key = w.key then .told w.target w.previous w.report.reading
    else waiting w.listed w.todo key
  | .writing w, key =>
    if key = w.key then .told w.target w.previous w.report.reading
    else waiting w.listed w.todo key
  | .leaving .., _ => .free

/-- A pass comes to no shelf twice. -/
def Pass.Once : Pass σ → Prop
  | .shelves _ _ todo => (todo.map Prod.fst).Nodup
  | .telling w => w.key ∉ w.todo.map Prod.fst ∧ (w.todo.map Prod.fst).Nodup
  | .labelling w => w.key ∉ w.todo.map Prod.fst ∧ (w.todo.map Prod.fst).Nodup
  | .writing w => w.key ∉ w.todo.map Prod.fst ∧ (w.todo.map Prod.fst).Nodup
  | _ => True

/-- **What runs keep.** -/
structure Inv (s : State σ) : Prop where
  told : TellsOnce s
  numbered : ∀ key, (s.shelf key).Numbered
  placed : ∀ key, (s.shelf key).At (s.pass.place key)
  once : s.pass.Once

namespace Shelf

lemma Unseen.last (h : x.Unseen u) (k : Kind) : x.last u k = k.good := by
  have none : x.seen.filter (·.1 = u) = [] :=
    List.filter_eq_nil_iff.mpr fun e mem => by simpa using h e mem
  rw [Shelf.last, seenOf, none]
  rfl

/-- A new object shows what was read for it: nothing. -/
lemma Unseen.agrees (h : x.Unseen u) : x.Agrees u [] := fun k => (h.last k).symm

lemma Numbered.unseen (h : x.Numbered) : x.Unseen x.made := fun e mem =>
  Nat.ne_of_lt (h.seen e mem)

lemma At.free_of_listed {ref : Option (ℕ × List Shown)} (h : x.At (.listed ref)) : x.At .free := by
  intro o found
  obtain same | ⟨nil, unseen, -⟩ := h.1 o found
  · exact (h.2 _ _ same).1
  · rw [nil]
    exact unseen.agrees

/-- What was not written need not be, if the step is clean. -/
lemma At.free_of_told (h : x.At (.told w.target w.previous w.report.reading))
    (kept : w.Kept false x.object) : x.At .free := by
  intro o found
  rw [found, Work.Kept] at kept
  obtain same | ⟨nil, unseen, other⟩ := h.1 o found
  · obtain ⟨target, previous⟩ := Prod.mk.inj (Option.some.inj same)
    rw [if_pos target.symm] at kept
    intro k
    have unchanged : ¬ w.Changed k := fun changed => Bool.noConfusion (kept k changed)
    rw [← target, ← previous, h.2.1 k]
    exact (not_not.mp unchanged).symm
  · rw [nil]
    exact unseen.agrees

/-- What is written shows what was read. -/
lemma At.free_of_written {o : Object} (h : x.At (.told w.target w.previous w.report.reading))
    (found : x.object = some o) (kept : w.Kept true x.object) (y : Shelf σ) (seen : y.seen = x.seen)
    (new : ∀ o', y.object = some o' → o'.uid = o.uid ∧ o'.conditions = w.status.conditions) :
    y.At .free := by
  intro o' found' k
  obtain ⟨uid, conditions⟩ := new o' found'
  have shown : shows o'.conditions k = (w.report.reading k).status := by
    rw [conditions]
    exact shows_conditionsJson ..
  have last : y.last o'.uid k = x.last o.uid k := by
    rw [Shelf.last, Shelf.last, seenOf, seenOf, seen, uid]
  rw [shown, last]
  rw [found, Work.Kept] at kept
  obtain same | ⟨nil, unseen, other⟩ := h.1 o found
  · rw [← (Prod.mk.inj (Option.some.inj same)).1, h.2.1 k]
  · rw [if_neg fun target => other w.previous (by rw [target])] at kept
    rw [kept rfl k, unseen.last]

/-- A shelf of which nothing more was told or read, and whose object is as it was or is new. -/
structure Follows (x y : Shelf σ) : Prop where
  seen : y.seen = x.seen
  events : ∀ u k, toldOf y.events u k = toldOf x.events u k
  log : y.log = x.log
  made : x.made ≤ y.made
  object : ∀ o', y.object = some o' →
    (∃ o, x.object = some o ∧ o'.uid = o.uid ∧ o'.conditions = o.conditions) ∨
      (o'.conditions = [] ∧ o'.uid = x.made ∧ x.made < y.made)

lemma Follows.refl (x : Shelf σ) : x.Follows x :=
  ⟨rfl, fun _ _ => rfl, rfl, Nat.le_refl _, fun o' found => Or.inl ⟨o', found, rfl, rfl⟩⟩

section Follows

variable {y : Shelf σ} (f : x.Follows y)

include f

lemma Follows.tellsOnce (h : x.TellsOnce) : y.TellsOnce := by
  have seen : ∀ u k, y.seenOf u k = x.seenOf u k := fun u k => by rw [seenOf, f.seen, seenOf]
  constructor
  · intro u k
    rw [f.events, seen, h.events]
  · intro u k
    rw [f.log, seen, h.log]

lemma Follows.numbered (h : x.Numbered) : y.Numbered := by
  constructor
  · intro o' found
    obtain ⟨o, before, uid, -⟩ | ⟨-, uid, more⟩ := f.object o' found
    · rw [uid]
      exact Nat.lt_of_lt_of_le (h.object o before) f.made
    · rw [uid]
      exact more
  · intro e mem
    rw [f.seen] at mem
    exact Nat.lt_of_lt_of_le (h.seen e mem) f.made

lemma Follows.last : y.last u k = x.last u k := by
  rw [Shelf.last, Shelf.last, seenOf, seenOf, f.seen]

lemma Follows.unseen (h : x.Unseen u) : y.Unseen u := by
  rw [Unseen, f.seen]
  exact h

lemma Follows.since (n : x.Numbered) {ref : Option (ℕ × List Shown)} (h : x.Since ref)
    (below : ∀ u l, ref = some (u, l) → u < x.made) : y.Since ref := by
  intro o' found
  obtain ⟨o, before, uid, conditions⟩ | ⟨nil, uid, -⟩ := f.object o' found
  · rw [uid, conditions]
    exact (h o before).imp_right fun new => ⟨new.1, f.unseen new.2.1, new.2.2⟩
  · refine Or.inr ⟨nil, f.unseen ?_, fun l same => ?_⟩
    · rw [uid]
      exact n.unseen
    · exact absurd uid (Nat.ne_of_lt (below _ _ same))

lemma Follows.at (n : x.Numbered) {p : Place} (h : x.At p) : y.At p := by
  cases p with
  | free =>
    intro o' found
    obtain ⟨o, before, uid, conditions⟩ | ⟨nil, uid, -⟩ := f.object o' found
    · intro k
      rw [conditions, uid, f.last]
      exact h o before k
    · rw [nil, uid]
      exact (f.unseen n.unseen).agrees
  | listed ref =>
    refine ⟨f.since n h.1 fun u l same => (h.2 u l same).2, fun u l same => ⟨fun k => ?_, ?_⟩⟩
    · rw [f.last]
      exact (h.2 u l same).1 k
    · exact Nat.lt_of_lt_of_le (h.2 u l same).2 f.made
  | told u l r =>
    refine ⟨f.since n h.1 ?_, fun k => ?_, Nat.lt_of_lt_of_le h.2.2 f.made⟩
    · intro u' l' same
      rw [← (Prod.mk.inj (Option.some.inj same)).1]
      exact h.2.2
    · rw [f.last]
      exact h.2.1 k

end Follows

lemma Follows.make (x : Shelf σ) (writer : Option String) : x.Follows (x.make writer) := by
  refine ⟨rfl, fun _ _ => rfl, rfl, Nat.le_succ _, fun o' found => Or.inr ?_⟩
  obtain rfl := Option.some.inj found
  exact ⟨rfl, rfl, Nat.lt_succ_self _⟩

/-- Only what no condition is told by changed, but for other fields of the object. -/
lemma Follows.of_object {y : Shelf σ} (seen : y.seen = x.seen)
    (events : ∀ u k, toldOf y.events u k = toldOf x.events u k) (log : y.log = x.log)
    (made : y.made = x.made) (object : ∀ o', y.object = some o' →
      ∃ o, x.object = some o ∧ o'.uid = o.uid ∧ o'.conditions = o.conditions) : x.Follows y :=
  ⟨seen, events, log, Nat.le_of_eq made.symm, fun o' found => Or.inl (object o' found)⟩

/-! ### What is told -/

lemma seenOf_tell (x : Shelf σ) (w : Work σ) (lost : String → Bool) (u : ℕ) (k : Kind) :
    (x.tell w lost).seenOf u k =
      x.seenOf u k ++ if w.target = u then [(w.report.reading k).status] else [] := by
  have seen : (x.tell w lost).seen = x.seen ++ [(w.target, w.report.reading)] := rfl
  rw [seenOf, seen, List.filter_append, List.map_append, seenOf]
  congr 1
  by_cases same : w.target = u
  · rw [if_pos same, List.filter_cons_of_pos (by simpa using same)]
    rfl
  · rw [if_neg same, List.filter_cons_of_neg (by simpa using same)]
    rfl

lemma last_tell (x : Shelf σ) (w : Work σ) (lost : String → Bool) (u : ℕ) (k : Kind) :
    (x.tell w lost).last u k =
      if w.target = u then (w.report.reading k).status else x.last u k := by
  rw [last, seenOf_tell]
  split_ifs with same
  · rw [List.getLastD_concat]
  · rw [List.append_nil, last]

/-- **A pass tells what changed**, where the object shows what was read last. -/
lemma TellsOnce.tell {lost : String → Bool} (h : x.TellsOnce)
    (agrees : x.Agrees w.target w.previous) (arrive : ∀ k, w.Changed k →
      lost (k.name ++ statusText (w.report.reading k).status) = false) :
    (x.tell w lost).TellsOnce := by
  -- one reading more is told of if it is not what the object shows
  have one : ∀ (l : List Note) (u : ℕ) (k : Kind),
      toldOf l u k = Changes.of k.good (x.seenOf u k) →
        toldOf (l ++ w.tellings.map fun t => ⟨w.target, t⟩) u k =
          Changes.of k.good ((x.tell w lost).seenOf u k) := by
    intro l u k told
    rw [toldOf_append, toldOf_map, seenOf_tell, told]
    by_cases same : w.target = u
    · rw [if_pos same, if_pos same, Changes.of_concat, w.filterMap_tellings, agrees k, same, last]
    · rw [if_neg same, if_neg same, List.append_nil, List.append_nil]
  constructor
  · intro u k
    have events : (x.tell w lost).events =
        x.events ++ w.tellings.map fun t => ⟨w.target, t⟩ := by
      rw [Shelf.tell, Work.filter_tellings arrive]
    rw [events]
    exact one _ u k (h.events u k)
  · intro u k
    exact one _ u k (h.log u k)

lemma Numbered.tell (lost : String → Bool) (h : x.Numbered) (target : w.target < x.made) :
    (x.tell w lost).Numbered := by
  refine ⟨h.object, fun e mem => ?_⟩
  obtain old | new := List.mem_append.mp mem
  · exact h.seen e old
  · rw [List.mem_singleton.mp new]
    exact target

lemma At.tell (lost : String → Bool) (h : x.At (.listed (some (w.target, w.previous)))) :
    (x.tell w lost).At (.told w.target w.previous w.report.reading) := by
  refine ⟨fun o found => ?_, fun k => ?_, (h.2 _ _ rfl).2⟩
  · refine (h.1 o found).imp_right fun ⟨nil, unseen, other⟩ => ⟨nil, fun e mem => ?_, other⟩
    obtain old | new := List.mem_append.mp mem
    · exact unseen e old
    · rw [List.mem_singleton.mp new]
      intro same
      exact other w.previous (by rw [← same])
  · rw [last_tell, if_pos rfl]

end Shelf

/-! ### The shelves of a pass -/

lemma Shelf.At.free_of_waiting {listed : String → Option Object} {todo : List (String × Report σ)}
    {key : String} (h : x.At (waiting listed todo key)) : x.At .free := by
  rw [waiting] at h
  split_ifs at h
  · exact h.free_of_listed
  · exact h

variable {s : State σ} {key : String} {p : Pass σ} {y : Shelf σ}

/-- The invariant is kept when no condition is told of and the shelves are where the pass has
them. -/
lemma Inv.follow {s' : State σ} (inv : Inv s) (f : ∀ key, (s.shelf key).Follows (s'.shelf key))
    (placed : ∀ key, (s'.shelf key).At (s'.pass.place key)) (once : s'.pass.Once) : Inv s' :=
  ⟨fun key => (f key).tellsOnce (inv.told key), fun key => (f key).numbered (inv.numbered key),
    placed, once⟩

/-- The pass goes on. -/
lemma Inv.go (inv : Inv s) (placed : ∀ key, (s.shelf key).At (p.place key)) (once : p.Once) :
    Inv { s with pass := p } :=
  inv.follow (fun _ => .refl _) placed once

lemma State.shelf_put_self : (s.put key y p).shelf key = y := Function.update_self ..

lemma State.shelf_put_of_ne {key' : String} (ne : key' ≠ key) :
    (s.put key y p).shelf key' = s.shelf key' := Function.update_of_ne ne ..

/-- What is so of the shelf that is put, and of the others, is so of all. -/
lemma State.forall_put {P : String → Shelf σ → Prop} (self : P key y)
    (others : ∀ key', key' ≠ key → P key' (s.shelf key')) :
    ∀ key', P key' ((s.put key y p).shelf key') := by
  intro key'
  by_cases same : key' = key
  · rw [same, State.shelf_put_self]
    exact self
  · rw [State.shelf_put_of_ne same]
    exact others key' same

/-- A shelf becomes another, and the pass goes on. -/
lemma Inv.put (inv : Inv s) (told : y.TellsOnce) (numbered : y.Numbered)
    (placed : y.At (p.place key))
    (others : ∀ key', key' ≠ key → (s.shelf key').At (p.place key')) (once : p.Once) :
    Inv (s.put key y p) where
  told := State.forall_put (P := fun _ x => x.TellsOnce) told fun key' _ => inv.told key'
  numbered := State.forall_put (P := fun _ x => x.Numbered) numbered fun key' _ => inv.numbered key'
  placed := State.forall_put (P := fun key' x => x.At (p.place key')) placed others
  once := once

/-- A shelf becomes one that follows it, and the pass goes on. -/
lemma Inv.putFollowing (inv : Inv s) (f : (s.shelf key).Follows y) (placed : y.At (p.place key))
    (others : ∀ key', key' ≠ key → (s.shelf key').At (p.place key')) (once : p.Once) :
    Inv (s.put key y p) :=
  inv.put (f.tellsOnce (inv.told key)) (f.numbered (inv.numbered key)) placed others once

/-- A shelf follows itself, wherever the pass is. -/
lemma Inv.putStill (inv : Inv s) (f : (s.shelf key).Follows y) : Inv (s.put key y s.pass) :=
  inv.putFollowing f (f.at (inv.numbered key) (inv.placed key)) (fun key' _ => inv.placed key')
    inv.once

/-- The shelf that a pass is at. -/
def Pass.work : Pass σ → Option (Work σ)
  | .telling w => some w
  | .labelling w => some w
  | .writing w => some w
  | _ => none

lemma Pass.place_of_ne (here : p.work = some w) (ne : key ≠ w.key) :
    p.place key = waiting w.listed w.todo key := by
  cases p with
  | telling w' | labelling w' | writing w' =>
    obtain rfl := Option.some.inj here
    exact if_neg ne
  | idle | shelves | leaving => cases here

lemma Pass.Once.at (here : p.work = some w) (h : p.Once) :
    w.key ∉ w.todo.map Prod.fst ∧ (w.todo.map Prod.fst).Nodup := by
  cases p with
  | telling w' | labelling w' | writing w' =>
    obtain rfl := Option.some.inj here
    exact h
  | idle | shelves | leaving => cases here

section Work

variable (inv : Inv s) (here : s.pass.work = some w)

include inv here

lemma Inv.others {key' : String} (ne : key' ≠ w.key) :
    (s.shelf key').At (waiting w.listed w.todo key') := by
  rw [← Pass.place_of_ne here ne]
  exact inv.placed key'

/-- The pass goes on with the next shelf: nothing is left to do at this one. -/
lemma Inv.next (told : y.TellsOnce) (numbered : y.Numbered) (free : y.At .free) :
    Inv (s.put w.key y (.shelves w.listed w.reported w.todo)) := by
  refine inv.put told numbered ?_ (fun key' ne => inv.others here ne) (inv.once.at here).2
  have self : waiting w.listed w.todo w.key = .free := if_neg (inv.once.at here).1
  rw [Pass.place, self]
  exact free

/-- The pass ends at this shelf. -/
lemma Inv.endAt (told : y.TellsOnce) (numbered : y.Numbered) (free : y.At .free) :
    Inv (s.put w.key y .idle) :=
  inv.put told numbered free (fun _ ne => (inv.others here ne).free_of_waiting) trivial

end Work

lemma State.put_shelf (s : State σ) (key : String) (p : Pass σ) :
    s.put key (s.shelf key) p = { s with pass := p } := by
  rw [State.put, Function.update_eq_self]

lemma Inv.tell (inv : Inv s) (pass : s.pass = .telling w) {lost : String → Bool} {now : ℕ}
    [DecidableEq σ] (clean : ∀ k, w.Changed k →
      lost (k.name ++ statusText (w.report.reading k).status) = false ∧
        (s.shelf w.key).Due w.status now) : Inv (s.tell lost now) := by
  have here : s.pass.work = some w := by rw [pass]; rfl
  have listed : (s.shelf w.key).At (.listed (some (w.target, w.previous))) := by
    have placed := inv.placed w.key
    rw [pass, Pass.place, if_pos rfl] at placed
    exact placed
  have target := listed.2 _ _ rfl
  have told := (inv.told w.key).tell target.1 fun k changed => (clean k changed).1
  have numbered := (inv.numbered w.key).tell lost target.2
  have read := listed.tell lost
  rw [State.tell, pass]
  dsimp only
  split_ifs with due old
  · refine inv.put told numbered ?_ (fun key' ne => ?_) (inv.once.at here)
    · rw [Pass.place, if_pos rfl]
      exact read
    · rw [Pass.place, if_neg ne]
      exact inv.others here ne
  · refine inv.put told numbered ?_ (fun key' ne => ?_) (inv.once.at here)
    · rw [Pass.place, if_pos rfl]
      exact read
    · rw [Pass.place, if_neg ne]
      exact inv.others here ne
  · -- it is not due: nothing changed
    refine inv.next here told numbered (read.free_of_told ?_)
    cases (s.shelf w.key).tell w lost |>.object with
    | none => trivial
    | some o =>
      rw [Work.Kept]
      split_ifs
      · exact fun k changed => absurd (clean k changed).2 due
      · exact fun no => no.elim

lemma Inv.write (inv : Inv s) (pass : s.pass = .writing w) {a : Answer} {now : ℕ}
    (kept : w.Kept (a != .failed) (s.shelf w.key).object) : Inv (s.write a now) := by
  have here : s.pass.work = some w := by rw [pass]; rfl
  have told : (s.shelf w.key).At (.told w.target w.previous w.report.reading) := by
    have placed := inv.placed w.key
    rw [pass, Pass.place, if_pos rfl] at placed
    exact placed
  have tells := inv.told w.key
  have numbered := inv.numbered w.key
  rw [State.write, pass]
  dsimp only
  cases found : (s.shelf w.key).object with
  | none =>
    dsimp only
    rw [← State.put_shelf s w.key]
    refine inv.endAt here tells numbered (told.free_of_told ?_)
    rw [found]
    trivial
  | some o =>
    have bound := numbered.object o found
    cases a with
    | done =>
      refine inv.next here ⟨tells.events, tells.log⟩ ⟨?_, numbered.seen⟩
        (told.free_of_written found kept _ rfl ?_)
      · rintro o' ⟨⟩
        exact bound
      · rintro o' ⟨⟩
        exact ⟨rfl, rfl⟩
    | lost =>
      refine inv.endAt here ⟨tells.events, tells.log⟩ ⟨?_, numbered.seen⟩
        (told.free_of_written found kept _ rfl ?_)
      · rintro o' ⟨⟩
        exact bound
      · rintro o' ⟨⟩
        exact ⟨rfl, rfl⟩
    | failed =>
      dsimp only
      rw [← State.put_shelf s w.key]
      exact inv.endAt here tells numbered (told.free_of_told kept)

/-! ### The other calls -/

/-- An object that is there, whether the pass listed it or another made it, has the conditions that
the pass has of it. -/
lemma Shelf.At.listed_of_none {o : Object} (h : x.At (.listed none)) (numbered : x.Numbered)
    (found : x.object = some o) : x.At (.listed (some (o.uid, []))) := by
  obtain same | ⟨nil, unseen, -⟩ := h.1 o found
  · exact absurd same.symm (Option.some_ne_none _)
  · refine ⟨fun o' found' => Or.inl ?_, fun u l same => ?_⟩
    · rw [found] at found'
      rw [← Option.some.inj found', nil]
    · obtain ⟨rfl, rfl⟩ := Prod.mk.inj (Option.some.inj same)
      exact ⟨unseen.agrees, numbered.object o found⟩

lemma Shelf.At.listed_make (h : x.At (.listed none)) (numbered : x.Numbered)
    (writer : Option String) : (x.make writer).At (.listed (some (x.made, []))) := by
  have f := Shelf.Follows.make x writer
  exact (f.at numbered h).listed_of_none (f.numbered numbered) rfl

/-- An object that is listed is as it is. -/
lemma Shelf.At.listed_of_free (h : x.At .free) (numbered : x.Numbered) :
    x.At (.listed (x.object.map fun o => (o.uid, o.conditions))) := by
  constructor
  · intro o found
    rw [found]
    exact Or.inl rfl
  · intro u l same
    obtain ⟨o, found, made⟩ := Option.map_eq_some_iff.mp same
    obtain ⟨rfl, rfl⟩ := Prod.mk.inj made
    exact ⟨h o found, numbered.object o found⟩

lemma Inv.list (inv : Inv s) (pass : s.pass = .idle) (r : Reports σ) :
    Inv { s with
      pass := .shelves (fun key => (s.shelf key).object) (r.list.map Prod.fst) r.list } := by
  refine inv.go (fun key => ?_) r.nodup
  have free : (s.shelf key).At .free := by
    have placed := inv.placed key
    rwa [pass] at placed
  rw [Pass.place, waiting]
  split_ifs
  · exact free.listed_of_free (inv.numbered key)
  · exact free

section Visit

variable {listed : String → Option Object} {reported : List String} {key : String}
  {report : Report σ} {todo : List (String × Report σ)}

lemma waiting_self : waiting listed ((key, report) :: todo) key =
    .listed ((listed key).map fun o => (o.uid, o.conditions)) :=
  if_pos (List.mem_map_of_mem List.mem_cons_self)

/-- Of the other shelves a pass has what it had. -/
lemma waiting_cons {key' : String} (ne : key' ≠ key) :
    waiting listed ((key, report) :: todo) key' = waiting listed todo key' := by
  have same : key' ∈ ((key, report) :: todo).map Prod.fst ↔ key' ∈ todo.map Prod.fst := by
    rw [List.map_cons, List.mem_cons]
    exact or_iff_right ne
  rw [waiting, waiting]
  by_cases more : key' ∈ todo.map Prod.fst
  · rw [if_pos more, if_pos (same.mpr more)]
  · rw [if_neg more, if_neg fun h => more (same.mp h)]

lemma Inv.create (node : String) (inv : Inv s) {time : String} {a : Answer}
    (pass : s.pass = .shelves listed reported ((key, report) :: todo))
    (unlisted : listed key = none) :
    Inv (s.create node ⟨listed, reported, todo, key, report, time, none, 0⟩ a) := by
  have once := inv.once
  rw [pass, Pass.Once, List.map_cons, List.nodup_cons] at once
  have free : ∀ key', (s.shelf key').At .free := fun key' => by
    have placed := inv.placed key'
    rw [pass] at placed
    exact placed.free_of_waiting
  have others : ∀ key', key' ≠ key → (s.shelf key').At (waiting listed todo key') := by
    intro key' ne
    have placed := inv.placed key'
    rwa [pass, Pass.place, waiting_cons ne] at placed
  have here : (s.shelf key).At (.listed Option.none) := by
    have placed := inv.placed key
    rwa [pass, Pass.place, waiting_self, unlisted] at placed
  have numbered := inv.numbered key
  unfold State.create
  dsimp only
  cases found : (s.shelf key).object with
  | some o =>
    dsimp only
    split_ifs
    · refine inv.go (fun key' => ?_) once
      rw [Pass.place]
      split_ifs with same
      · rw [same]
        exact here.listed_of_none numbered found
      · exact others key' same
    · exact inv.go free trivial
  | none =>
    have f := Shelf.Follows.make (s.shelf key) (labelValue node)
    cases a with
    | done =>
      refine inv.putFollowing f ?_ (fun key' ne => ?_) once
      · rw [Pass.place, if_pos rfl]
        exact here.listed_make numbered _
      · rw [Pass.place, if_neg ne]
        exact others key' ne
    | lost => exact inv.putFollowing f (f.at numbered (free key)) (fun key' _ => free key') trivial
    | failed => exact inv.go free trivial

lemma Inv.visit (node : String) (inv : Inv s) (time : String) (a : Answer) :
    Inv (s.visit node time a) := by
  rw [State.visit]
  split
  · rename_i listed reported pass
    have placed := inv.placed
    rw [pass] at placed
    exact inv.go (fun key => (placed key).free_of_waiting) trivial
  · rename_i listed reported key report todo pass
    have once := inv.once
    have placed := inv.placed
    rw [pass] at once placed
    rw [Pass.Once, List.map_cons, List.nodup_cons] at once
    cases found : listed key with
    | none => exact inv.create node pass found
    | some o =>
      dsimp only
      have here := placed key
      rw [Pass.place, waiting_self, found] at here
      split_ifs
      · refine inv.go (fun key' => ?_) once.2
        by_cases same : key' = key
        · rw [same, Pass.place, waiting, if_neg once.1]
          exact here.free_of_listed
        · rw [Pass.place, ← waiting_cons same]
          exact placed key'
      · refine inv.go (fun key' => ?_) once
        rw [Pass.place]
        split_ifs with same
        · rw [same]
          exact here
        · rw [← waiting_cons same]
          exact placed key'
  · exact inv

end Visit

/-- The labels say nothing of conditions. -/
lemma Inv.label (node : String) (inv : Inv s) (done : Bool) : Inv (s.label node done) := by
  rw [State.label]
  split
  · rename_i w pass
    have here : s.pass.work = some w := by rw [pass]; rfl
    have placed := inv.placed w.key
    rw [pass] at placed
    have f : (s.shelf w.key).Follows { s.shelf w.key with
        object := if done then
            (s.shelf w.key).object.map fun o => { o with writer := labelValue node <|> o.writer }
          else (s.shelf w.key).object } := by
      refine .of_object rfl (fun _ _ => rfl) rfl rfl fun o' found => ?_
      dsimp only at found
      split_ifs at found
      · obtain ⟨o, before, rfl⟩ := Option.map_eq_some_iff.mp found
        exact ⟨o, before, rfl, rfl⟩
      · exact ⟨o', found, rfl, rfl⟩
    refine inv.putFollowing f (f.at (inv.numbered w.key) placed) (fun key' ne => ?_)
      (inv.once.at here)
    rw [Pass.place, if_neg ne]
    exact inv.others here ne
  · exact inv

/-- That a shelf is not seen any more says nothing of conditions. -/
lemma Inv.leave (node : String) (inv : Inv s) (key : String) (a : Answer) (lost : Bool) :
    Inv (s.leave node key a lost) := by
  unfold State.leave
  split
  · rename_i listed reported left pass
    have free : ∀ key', (s.shelf key').At .free := fun key' => by
      have placed := inv.placed key'
      rwa [pass] at placed
    split
    · dsimp only
      cases found : (s.shelf key).object with
      | none => exact inv.go free trivial
      | some o =>
        have object : ∀ o' : Object, some { o with present := some false } = some o' →
            ∃ o, (s.shelf key).object = some o ∧ o'.uid = o.uid ∧
              o'.conditions = o.conditions := by
          rintro o' ⟨⟩
          exact ⟨o, found, rfl, rfl⟩
        cases a with
        | done =>
          have f : (s.shelf key).Follows { s.shelf key with
              object := some { o with present := some false }
              written := none
              events := if lost then (s.shelf key).events else (s.shelf key).events ++
                [⟨((listed key).map (·.uid)).getD 0, notSeen key node⟩] } := by
            refine .of_object rfl (fun u k => ?_) rfl rfl object
            dsimp only
            split_ifs
            · rfl
            · rw [toldOf_append]
              refine (congrArg _ ?_).trans (List.append_nil _)
              rw [toldOf, List.filterMap_eq_nil_iff]
              intro n mem
              obtain rfl := List.mem_singleton.mp (List.mem_of_mem_filter mem)
              exact statusOf_notSeen k key node
          exact inv.putFollowing f (f.at (inv.numbered key) (free key)) (fun key' _ => free key')
            trivial
        | lost =>
          have f : (s.shelf key).Follows
              { s.shelf key with object := some { o with present := some false } } :=
            .of_object rfl (fun _ _ => rfl) rfl rfl object
          exact inv.putFollowing f (f.at (inv.numbered key) (free key)) (fun key' _ => free key')
            trivial
        | failed => exact inv.go free trivial
    · exact inv
  · exact inv

/-- A process can end where what was told is written. -/
lemma Inv.stop (inv : Inv s) (free : ∀ key, (s.shelf key).At .free) :
    Inv (⟨fun key => { s.shelf key with written := none }, .idle⟩ : State σ) := by
  have f : ∀ key, (s.shelf key).Follows { s.shelf key with written := none } := fun key =>
    .of_object rfl (fun _ _ => rfl) rfl rfl fun o' found => ⟨o', found, rfl, rfl⟩
  exact inv.follow f (fun key => (f key).at (inv.numbered key) (free key)) trivial

/-- What was told of a shelf that a pass is at is written, or need not be. -/
lemma Inv.free (inv : Inv s) (here : s.pass.work = some w) (self : (s.shelf w.key).At .free) :
    ∀ key, (s.shelf key).At .free := by
  intro key
  by_cases same : key = w.key
  · rw [same]
    exact self
  · exact (inv.others here same).free_of_waiting

variable [DecidableEq σ]

/-- **A clean step keeps the invariant.** -/
lemma Inv.step (node : String) (inv : Inv s) (a : Act σ) (clean : Clean s a) :
    Inv (step node s a) := by
  cases a with
  | make key writer =>
    rw [ShelfConditions.step]
    split
    · exact inv
    · exact inv.putStill (.make _ writer)
  | remove key =>
    exact inv.putStill (.of_object rfl (fun _ _ => rfl) rfl rfl fun o' no => nomatch no)
  | list reports =>
    cases reports with
    | none => exact inv
    | some r =>
      rw [ShelfConditions.step]
      split
      · rename_i pass
        exact inv.list pass r
      · exact inv
  | visit time a => exact inv.visit node time a
  | tell lost now =>
    rw [Clean] at clean
    split at clean
    · rename_i w pass
      exact inv.tell pass clean
    · rename_i other
      rw [ShelfConditions.step, State.tell]
      split
      · rename_i w pass
        exact absurd pass (other w)
      · exact inv
  | label done => exact inv.label node done
  | write a now =>
    rw [Clean] at clean
    split at clean
    · rename_i w pass
      exact inv.write pass clean
    · rename_i other
      rw [ShelfConditions.step, State.write]
      split
      · rename_i w pass
        exact absurd pass (other w)
      · exact inv
  | leave key a lost => exact inv.leave node key a lost
  | finish =>
    rw [ShelfConditions.step]
    split
    · rename_i pass
      refine inv.go (fun key => ?_) trivial
      have placed := inv.placed key
      rwa [pass] at placed
    · exact inv
  | stop =>
    refine inv.stop ?_
    have placed := inv.placed
    rw [Clean] at clean
    cases pass : s.pass with
    | idle | leaving =>
      rw [pass] at placed
      exact placed
    | shelves listed reported todo =>
      rw [pass] at placed
      exact fun key => (placed key).free_of_waiting
    | telling w =>
      have here : s.pass.work = some w := by rw [pass]; rfl
      have self := placed w.key
      rw [pass, Pass.place, if_pos rfl] at self
      exact inv.free here self.free_of_listed
    | labelling w | writing w =>
      have here : s.pass.work = some w := by rw [pass]; rfl
      have self := placed w.key
      rw [pass, Pass.place, if_pos rfl] at self
      rw [pass] at clean
      exact inv.free here (self.free_of_told clean)

end Invariant

/-! ## The times of conditions -/

section Times

variable {σ : Type} {x : Shelf σ} {s : State σ} {key : String} {p : Pass σ}

/-- A shelf's object has the conditions it had, or is new. -/
def Shelf.Keeps (x y : Shelf σ) : Prop :=
  ∀ o', y.object = some o' →
    (∃ o, x.object = some o ∧ o'.uid = o.uid ∧ o'.conditions = o.conditions) ∨ o'.uid = x.made

lemma Shelf.Keeps.refl (x : Shelf σ) : x.Keeps x := fun o' found => Or.inl ⟨o', found, rfl, rfl⟩

lemma Shelf.Keeps.make (x : Shelf σ) (writer : Option String) : x.Keeps (x.make writer) := by
  intro o' found
  obtain rfl := Option.some.inj found
  exact Or.inr rfl

/-- It is the object that there was, but for fields that are no conditions. -/
lemma Shelf.Keeps.of_some {o new : Object} {y : Shelf σ} (found : x.object = some o)
    (object : y.object = some new) (uid : new.uid = o.uid)
    (conditions : new.conditions = o.conditions) : x.Keeps y := by
  intro o' found'
  rw [object] at found'
  obtain rfl := Option.some.inj found'
  exact Or.inl ⟨o, found, uid, conditions⟩

lemma State.keeps_put {y : Shelf σ} (self : (s.shelf key).Keeps y) :
    ∀ key', (s.shelf key').Keeps ((s.put key y p).shelf key') :=
  State.forall_put (P := fun key' y => (s.shelf key').Keeps y) self fun _ _ => .refl _

/-- An object that is not new has the conditions that it had. -/
lemma Shelf.Keeps.conditions_eq {y : Shelf σ} (h : x.Keeps y) (numbered : x.Numbered)
    {o o' : Object} (found : x.object = some o) (found' : y.object = some o')
    (uid : o'.uid = o.uid) : o'.conditions = o.conditions := by
  obtain ⟨o₁, before, -, conditions⟩ | new := h o' found'
  · rw [found] at before
    obtain rfl := Option.some.inj before
    exact conditions
  · exact absurd (uid.symm.trans new) (Nat.ne_of_lt (numbered.object o found))

/-- What a status write leaves of an object: its conditions, or those of the pass. -/
lemma State.conditions_write {b : Answer} {now : ℕ} {o o' : Object}
    (found : (s.shelf key).object = some o)
    (found' : ((s.write b now).shelf key).object = some o') :
    o'.conditions = o.conditions ∨
      ∃ w, s.pass = .writing w ∧ key = w.key ∧ o'.conditions = w.status.conditions := by
  have same : (s.shelf key).object = some o' → o'.conditions = o.conditions := by
    intro still
    rw [found] at still
    rw [Option.some.inj still]
  rw [State.write] at found'
  split at found'
  · rename_i w pass
    dsimp only at found'
    split at found'
    · exact Or.inl (same found')
    · split at found'
      · by_cases here : key = w.key
        · subst here
          rw [State.shelf_put_self] at found'
          exact Or.inr ⟨w, pass, rfl, by rw [← Option.some.inj found']⟩
        · rw [State.shelf_put_of_ne here] at found'
          exact Or.inl (same found')
      · by_cases here : key = w.key
        · subst here
          rw [State.shelf_put_self] at found'
          exact Or.inr ⟨w, pass, rfl, by rw [← Option.some.inj found']⟩
        · rw [State.shelf_put_of_ne here] at found'
          exact Or.inl (same found')
      · exact Or.inl (same found')
  · exact Or.inl (same found')

/-- A condition that is written with another time has another status than it had. -/
lemma Shown.status_of_moved {r : Reading} {previous : List Shown} {time : String} {k : Kind}
    {q q' : Shown} (shown : find previous k = some q)
    (shown' : find (conditionsJson (conditions r) previous time) k = some q')
    (moved : q'.lastTransitionTime ≠ q.lastTransitionTime) :
    q'.status = (r k).status ∧ q'.status ≠ q.status := by
  rw [find_conditionsJson] at shown'
  obtain rfl := Option.some.inj shown'
  refine ⟨rfl, fun same => moved ?_⟩
  have kind : (r.condition k).kind = k := rfl
  show (r.condition k).since previous time = q.lastTransitionTime
  rw [Condition.since, kind, shown]
  exact if_pos same.symm

variable [DecidableEq σ] (node : String)

/-- Only a status write changes the conditions of an object. -/
lemma step_keeps (s : State σ) (a : Act σ) (other : ∀ b now, a ≠ .write b now) :
    ∀ key, (s.shelf key).Keeps ((step node s a).shelf key) := by
  have same : ∀ key, (s.shelf key).Keeps (s.shelf key) := fun _ => .refl _
  cases a with
  | make key writer =>
    rw [step]
    split
    · exact same
    · exact State.keeps_put (.make _ writer)
  | remove key => exact State.keeps_put fun o' no => nomatch no
  | list reports =>
    cases reports with
    | none => exact same
    | some r =>
      rw [step]
      split <;> exact same
  | visit time a =>
    rw [step, State.visit]
    split
    · exact same
    · split
      · split <;> exact same
      · unfold State.create
        dsimp only
        split
        · exact same
        · split
          · exact State.keeps_put (.make _ _)
          · exact State.keeps_put (.make _ _)
          · exact same
    · exact same
  | tell lost now =>
    rw [step, State.tell]
    split
    · exact State.keeps_put fun o' found => Or.inl ⟨o', found, rfl, rfl⟩
    · exact same
  | label done =>
    rw [step, State.label]
    split
    · rename_i w pass
      refine State.keeps_put fun o' found => ?_
      dsimp only at found
      split at found
      · obtain ⟨o, before, rfl⟩ := Option.map_eq_some_iff.mp found
        exact Or.inl ⟨o, before, rfl, rfl⟩
      · exact Or.inl ⟨o', found, rfl, rfl⟩
    · exact same
  | write b now => exact absurd rfl (other b now)
  | leave key a lost =>
    rw [step]
    unfold State.leave
    split
    · split
      · dsimp only
        split
        · exact same
        · rename_i o found
          split
          · exact State.keeps_put (.of_some found rfl rfl rfl)
          · exact State.keeps_put (.of_some found rfl rfl rfl)
          · exact same
      · exact same
    · exact same
  | finish =>
    rw [step]
    split <;> exact same
  | stop => exact fun key o' found => Or.inl ⟨o', found, rfl, rfl⟩

/-- **The time of a condition moves only with what is told**: where it is written anew, the status
was another one than the one that was read and told last. -/
lemma steady_of_inv (inv : Inv s) (a : Act σ) : Steady node s a := by
  intro key o o' found found' uid k q q' shown shown' moved
  have changed : o'.conditions ≠ o.conditions := by
    intro same
    rw [same, shown] at shown'
    exact moved (by rw [Option.some.inj shown'])
  by_cases write : ∃ b now, a = .write b now
  · obtain ⟨b, now, rfl⟩ := write
    obtain same | ⟨w, pass, rfl, written⟩ := State.conditions_write found found'
    · exact absurd same changed
    · have told := inv.placed w.key
      rw [pass, Pass.place, if_pos rfl] at told
      obtain same | ⟨nil, -, -⟩ := told.1 o found
      · obtain ⟨target, previous⟩ := Prod.mk.inj (Option.some.inj same)
        rw [written] at shown'
        rw [← previous] at shown
        obtain ⟨status, other⟩ := Shown.status_of_moved shown shown' moved
        refine ⟨other, ?_⟩
        rw [(inv.told w.key).events, Changes.last_of, status, ← target]
        exact told.2.1 k
      · rw [nil] at shown
        exact absurd shown.symm (Option.some_ne_none _)
  · have keeps := step_keeps node s a (fun b now same => write ⟨b, now, same⟩) key
    exact absurd (keeps.conditions_eq (inv.numbered key) found found' uid) changed

end Times

/-! ## Runs -/

section Runs

variable {σ : Type}

lemma inv_start : Inv ({} : State σ) where
  told _ := ⟨fun _ _ => rfl, fun _ _ => rfl⟩
  numbered _ := ⟨fun _ no => (nomatch no), fun _ no => (nomatch no)⟩
  placed _ := fun _ no => (nomatch no)
  once := trivial

variable [DecidableEq σ] (node : String)

/-- **Each change is told once**, and the times move with what is told, in every run whose steps
lose nothing.

**Proof sketch.** An object that no pass is at shows what was read for it last (`Place`); a pass
tells what differs from that, and a clean pass leaves the object with what it told. A pass that
finds another object in the place of the one it listed finds one without conditions, for which
nothing was read. -/
theorem tellsOnce_of_clean (acts : List (Act σ)) (clean : Runs.Each (step node) Clean {} acts) :
    Runs.Throughout (step node) TellsOnce {} acts ∧ Runs.Each (step node) (Steady node) {} acts :=
  ⟨(Runs.throughout_of_each (fun _ a inv ok => inv.step node a ok) inv_start clean).mono
      fun _ inv => inv.told,
    Runs.each_of_each (fun _ a inv ok => inv.step node a ok)
      (fun _ a inv _ => steady_of_inv node inv a) inv_start clean⟩

end Runs

/-! ## A change that is told again -/

/-- A reading whose only problem is one condition. -/
def problem (k : Kind) : Reading := fun k' => ⟨if k = k' then !k'.good else k'.good, "", ""⟩

/-- A report of one shelf. -/
def oneReport (k : Kind) : Reports Unit :=
  ⟨[("50050cc1", ⟨problem k, ()⟩)], List.nodup_singleton _⟩

/-- A pass at one shelf whose calls are done, but for the last, the status write. -/
def onePass (k : Kind) (a : Answer) : List (Act Unit) :=
  [.list (some (oneReport k)), .visit "" .done, .tell (fun _ => false) 0, .write a 0]

/-- A power supply fails, and is told of; the status is then not written, and the next pass tells it
again. -/
theorem told_again :
    ¬ Runs.Throughout (step "n1") TellsOnce {}
      (onePass .psuDegraded .failed ++ onePass .psuDegraded .done) := by
  intro h
  have once := (h.last "50050cc1").events 0 .psuDegraded
  revert once
  decide

/-- A shelf whose power supply has failed when its object is made. -/
theorem told_of_new : TellsOnce (Runs.after (step "n1") {} (onePass .psuDegraded .done)) :=
  (tellsOnce_of_clean "n1" (onePass .psuDegraded .done)
    (by decide)).1.last

end ShelfConditions

end StormDrive
