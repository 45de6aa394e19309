import StormDrive.DriveObjects

set_option relaxedAutoImplicit false
set_option autoImplicit false

/-!
# Passes over the drives of a node

What the passes of `StormDrive.DriveObjects` keep in every run, and what is so when one of them ends.

## Main results

* `DriveObjects.shown_after_pass` — **after a pass each drive is shown and no forgotten one is
  there**, but for what others did since.
* `DriveObjects.user_fields_kept` — **what is the user's in an object stays**.
* `DriveObjects.foreign_left_alone` — **the objects of others are what others wrote**.
-/

namespace StormDrive

namespace DriveObjects

variable {node : String} {kind : DriveKind → String}

namespace World

variable {w v : World} {p : Pass} {d : Doc} {todo : List Doc} {names : List String}

/-! ## What a pass has done -/

/-- Nothing that a pass did is undone where what it put is remembered, and what it deleted stays
away or is made by others. -/
lemma Working.of (h : w.Working p todo names) (now : w.now ≤ v.now)
    (written : ∀ d ∈ p.docs, v.written d.name = w.written d.name)
    (last : ∀ n ∈ p.gone, v.last n = w.last n ∨ v.last n = .removed ∨ v.last n = .others) :
    v.Working p todo names where
  start := h.start.trans now
  distinct := h.distinct
  apart := h.apart
  puts := by
    obtain ⟨done, split, puts⟩ := h.puts
    refine ⟨done, split, fun d mem => ?_⟩
    rw [Put, written d (split ▸ List.mem_append_left _ mem)]
    exact puts d mem
  deleted := by
    obtain ⟨done, split, deleted⟩ := h.deleted
    refine ⟨done, split, fun n mem => ?_⟩
    obtain same | new := last n (split ▸ List.mem_append_left _ mem)
    · rw [same]
      exact deleted n mem
    · exact new

/-- What is at hand is of the pass, and is not deleted by it. -/
lemma Working.mem (h : w.Working p (d :: todo) names) : d ∈ p.docs := by
  obtain ⟨done, split, -⟩ := h.puts
  rw [split]
  exact List.mem_append_right _ (List.mem_cons_self ..)

lemma Working.not_gone (h : w.Working p (d :: todo) names) : d.name ∉ p.gone := fun mem =>
  h.apart d.name mem (List.mem_map_of_mem h.mem)

lemma Working.other (h : w.Working p (d :: todo) names) {n : String} (mem : n ∈ p.gone) :
    n ≠ d.name := fun same => h.not_gone (same ▸ mem)

/-- One object more is put. -/
lemma Working.put (h : w.Working p (d :: todo) names) (put : w.Put p d) :
    w.Working p todo names where
  start := h.start
  distinct := h.distinct
  apart := h.apart
  puts := by
    obtain ⟨done, split, puts⟩ := h.puts
    refine ⟨done ++ [d], by rw [split, List.append_assoc]; rfl, fun e mem => ?_⟩
    obtain old | new := List.mem_append.mp mem
    · exact puts e old
    · obtain rfl := List.mem_singleton.mp new
      exact put
  deleted := h.deleted

/-- One object more is deleted. -/
lemma Working.remove {name : String} (h : w.Working p todo (name :: names))
    (gone : w.last name = .removed) : w.Working p todo names where
  start := h.start
  distinct := h.distinct
  apart := h.apart
  puts := h.puts
  deleted := by
    obtain ⟨done, split, deleted⟩ := h.deleted
    refine ⟨done ++ [name], by rw [split, List.append_assoc]; rfl, fun n mem => ?_⟩
    obtain old | new := List.mem_append.mp mem
    · exact deleted n old
    · obtain rfl := List.mem_singleton.mp new
      exact Or.inl gone

lemma Working.patch (h : w.Working p (d :: todo) names) :
    (w.patch d).Working p (d :: todo) names := by
  cases found : w.objects.lookup d.name with
  | none =>
    rw [patch_of_none found]
    exact h
  | some o =>
    rw [patch_of_some found]
    exact h.of le_rfl (fun _ _ => rfl) fun n mem =>
      Or.inl (Function.update_of_ne (h.other mem) ..)

lemma Working.create (h : w.Working p (d :: todo) names) :
    (w.create d).Working p (d :: todo) names := by
  cases found : w.objects.lookup d.name with
  | some o =>
    rw [create_of_some found]
    exact h
  | none =>
    rw [create_of_none found]
    exact h.of le_rfl (fun _ _ => rfl) fun n mem =>
      Or.inl (Function.update_of_ne (h.other mem) ..)

lemma Working.patchStatus (h : w.Working p todo names) :
    (w.patchStatus d).Working p todo names := by
  cases found : w.objects.lookup d.name with
  | none =>
    rw [patchStatus_of_none found]
    exact h
  | some o =>
    rw [patchStatus_of_some found]
    exact h.of le_rfl (fun _ _ => rfl) fun _ _ => Or.inl rfl

lemma Working.stored (h : w.Working p (d :: todo) names) :
    (w.stored d).Working p todo names := by
  have new : (w.stored d).written d.name = some (d.fingerprint, w.now) :=
    Function.update_self ..
  have others : ∀ n ∈ p.gone, (w.stored d).last n = w.last n := by
    intro n mem
    unfold World.stored
    by_cases begun : w.last d.name = .begun
    · simp [begun, Function.update_of_ne (h.other mem)]
    · simp [begun]
  constructor
  · exact h.start
  · exact h.distinct
  · exact h.apart
  · obtain ⟨done, split, puts⟩ := h.puts
    refine ⟨done ++ [d], by rw [split, List.append_assoc]; rfl, fun e mem => ?_⟩
    obtain old | same := List.mem_append.mp mem
    · have distinct := h.distinct
      rw [split, List.map_append, List.map_cons] at distinct
      have other : e.name ≠ d.name := by
        have apart := (List.nodup_append.mp distinct).2.2
        exact apart e.name (List.mem_map_of_mem old) d.name (List.mem_cons_self ..)
      have kept : (w.stored d).written e.name = w.written e.name := Function.update_of_ne other ..
      rw [Put, kept]
      exact puts e old
    · obtain rfl := List.mem_singleton.mp same
      refine ⟨w.now, new, ?_⟩
      have start := h.start
      unfold refresh
      omega
  · obtain ⟨done, split, deleted⟩ := h.deleted
    refine ⟨done, split, fun n mem => ?_⟩
    rw [others n (split ▸ List.mem_append_left _ mem)]
    exact deleted n mem

/-! ## Every step keeps it -/

lemma put_of_fresh (start : p.start ≤ w.now) (fresh : w.fresh d = true) : w.Put p d := by
  obtain ⟨x, written, same⟩ := (Option.any_eq_true ..).mp fresh
  rw [Bool.and_eq_true, decide_eq_true_iff, decide_eq_true_iff] at same
  refine ⟨x.2, ?_, by omega⟩
  rw [written, ← same.1]

/-- A pass that goes on where it has less to do. -/
lemma Inv.goto (sound : w.Sound) (q : Phase)
    (current : ∀ d, q.current = some d → w.last d.name ≠ .put ∧ (w.last d.name = .begun →
      ∃ o, w.objects.lookup d.name = some o ∧ d.MainShownBy o))
    (working : ∀ p todo names, q.work = some (p, todo, names) → w.Working p todo names) :
    (w.goto q).Inv where
  toSound := ⟨sound.removed, sound.there, sound.put⟩
  current := current
  working p todo names work := (working p todo names work).of le_rfl (fun _ _ => rfl)
    fun _ _ => Or.inl rfl

/-- The same, where no put has begun. -/
lemma Inv.goto_next (sound : w.Sound) (q : Phase) (rest : q.current = none)
    (working : ∀ p todo names, q.work = some (p, todo, names) → w.Working p todo names) :
    (w.goto q).Inv :=
  .goto sound q (fun d at' => by cases rest.symm.trans at') working

/-- The call that puts the labels and the spec. -/
lemma Inv.putting (h : w.Inv) (phase : w.phase = .putting p (d :: todo)) (f : Fate) :
    (w.call (patch · d)
      (World.goto · (if w.there d then .status p d todo else .creating p d todo)) f).Inv := by
  have working : w.Working p (d :: todo) p.gone := h.working _ _ _ (by rw [phase]; rfl)
  have sound := h.toSound.patch (d := d)
  have kept := working.patch
  refine call_cases ?_ ?_ h.toSound.idle sound.idle f
  · refine ⟨sound, fun e at' => ?_, fun q todo' names' work => ?_⟩
    · rw [phase_patch, phase] at at'
      cases at'
    · rw [phase_patch, phase] at work
      cases work
      exact kept
  · cases found : w.objects.lookup d.name with
    | none =>
      rw [if_neg (by simp [there, found])]
      refine .goto sound _ (fun e at' => ?_) fun _ _ _ work => by cases work; exact kept
      cases at'
      rw [patch_of_none found]
      have away : ∀ l, l = Last.begun ∨ l = .put → w.last d.name ≠ l := by
        rintro l hl rfl
        exact h.there d.name hl found
      exact ⟨away _ (Or.inr rfl), fun begun => absurd begun (away _ (Or.inl rfl))⟩
    | some o =>
      rw [if_pos (by simp [there, found])]
      refine .goto sound _ (fun e at' => ?_) fun _ _ _ work => by cases work; exact kept
      cases at'
      refine ⟨?_, fun _ => current_patch found⟩
      rw [patch_of_some found]
      simp

/-- The call that makes an object. -/
lemma Inv.creating (h : w.Inv) (phase : w.phase = .creating p d todo) (f : Fate) :
    (w.call (create · d) (World.goto · (.status p d todo)) f).Inv := by
  have working : w.Working p (d :: todo) p.gone := h.working _ _ _ (by rw [phase]; rfl)
  have sound := h.toSound.create (d := d)
  have kept := working.create
  have current : (w.create d).last d.name ≠ .put ∧ ((w.create d).last d.name = .begun →
      ∃ o, (w.create d).objects.lookup d.name = some o ∧ d.MainShownBy o) := by
    cases found : w.objects.lookup d.name with
    | some o =>
      rw [create_of_some found]
      exact h.current d (by rw [phase]; rfl)
    | none =>
      refine ⟨?_, fun _ => current_create found⟩
      rw [create_of_none found]
      simp
  refine call_cases ?_ ?_ h.toSound.idle sound.idle f
  · refine ⟨sound, fun e at' => ?_, fun q todo' names' work => ?_⟩
    · rw [phase_create, phase] at at'
      cases at'
      exact current
    · rw [phase_create, phase] at work
      cases work
      exact kept
  · refine .goto sound _ (fun e at' => ?_) fun _ _ _ work => by cases work; exact kept
    cases at'
    exact current

/-- The call that puts the status. -/
lemma Inv.status (h : w.Inv) (phase : w.phase = .status p d todo) (f : Fate) :
    (w.call (patchStatus · d) (fun v => if w.there d then (v.stored d).goto (.putting p todo)
      else v.goto .idle) f).Inv := by
  have working : w.Working p (d :: todo) p.gone := h.working _ _ _ (by rw [phase]; rfl)
  have main := h.current d (by rw [phase]; rfl)
  have sound := h.toSound.patchStatus main.1
  have kept := working.patchStatus (d := d)
  have current : (w.patchStatus d).last d.name ≠ .put ∧ ((w.patchStatus d).last d.name = .begun →
      ∃ o, (w.patchStatus d).objects.lookup d.name = some o ∧ d.MainShownBy o) := by
    rw [last_patchStatus]
    refine ⟨main.1, fun begun => ?_⟩
    obtain ⟨o, found, labels, spec⟩ := main.2 begun
    obtain ⟨o', found', labels', spec', -⟩ := lookup_patchStatus found
    refine ⟨o', found', ?_, ?_⟩
    · rw [labels']
      exact labels
    · rw [spec']
      exact spec
  refine call_cases ?_ ?_ h.toSound.idle sound.idle f
  · refine ⟨sound, fun e at' => ?_, fun q todo' names' work => ?_⟩
    · rw [phase_patchStatus, phase] at at'
      cases at'
      exact current
    · rw [phase_patchStatus, phase] at work
      cases work
      exact kept
  · show (if w.there d then _ else _ : World).Inv
    split_ifs with there
    · refine .goto_next (sound.stored (fun begun => ?_) current.1) _ rfl
        fun _ _ _ work => by cases work; exact kept.stored
      rw [last_patchStatus] at begun
      obtain ⟨o, found, -⟩ := main.2 begun
      obtain ⟨o', found', -, -, status⟩ := lookup_patchStatus found
      obtain ⟨o'', found'', shown⟩ := current.2 (by rw [last_patchStatus]; exact begun)
      obtain rfl := Option.some.inj (found'.symm.trans found'')
      exact ⟨o', found', shown, status⟩
    · exact sound.idle

/-- The call that deletes an object. -/
lemma Inv.deleting {name : String} (h : w.Inv) (phase : w.phase = .deleting p (name :: names))
    (f : Fate) :
    (w.call (remove · name) (fun v => { v with
      written := Function.update v.written name none
      phase := .deleting p names }) f).Inv := by
  have working : w.Working p [] (name :: names) := h.working _ _ _ (by rw [phase]; rfl)
  have sound := h.toSound.remove name
  have mem : name ∈ p.gone := by
    obtain ⟨done, split, -⟩ := working.deleted
    rw [split]
    exact List.mem_append_right _ (List.mem_cons_self ..)
  have gone : (w.remove name).last name = .removed := Function.update_self ..
  have kept : (w.remove name).Working p [] (name :: names) := by
    refine working.of le_rfl (fun _ _ => rfl) fun n _ => ?_
    by_cases same : n = name
    · subst same
      exact Or.inr (Or.inl gone)
    · exact Or.inl (Function.update_of_ne same ..)
  refine call_cases ?_ ?_ h.toSound.idle sound.idle f
  · refine ⟨sound, fun e at' => ?_, fun q todo' names' work => ?_⟩
    · have at'' : w.phase.current = some e := at'
      rw [phase] at at''
      cases at''
    · have work' : w.phase.work = some (q, todo', names') := work
      rw [phase] at work'
      cases work'
      exact kept
  · refine ⟨⟨sound.removed, sound.there, fun n t at' written => ?_⟩, fun e at' => ?_,
      fun q todo' names' work => ?_⟩
    · by_cases same : n = name
      · subst same
        have none : Function.update (w.remove n).written n none n = none :=
          Function.update_self ..
        cases none.symm.trans written
      · have old : Function.update (w.remove name).written name none n = w.written n :=
          Function.update_of_ne same ..
        exact sound.put n t at' (old.symm.trans written)
    · cases at'
    · cases work
      refine (kept.remove gone).of le_rfl (fun d memd => ?_) fun _ _ => Or.inl rfl
      have other : d.name ≠ name := by
        rintro rfl
        exact working.apart d.name mem (List.mem_map_of_mem memd)
      exact Function.update_of_ne other ..

lemma Inv.next (h : w.Inv) (f : Fate) : (w.next f).Inv := by
  unfold World.next
  split
  · exact h
  · exact h
  · rename_i p phase
    exact .goto_next h.toSound _ rfl fun _ _ _ work => by
      cases work
      exact h.working _ _ _ (by rw [phase]; rfl)
  · rename_i p d todo phase
    have working : w.Working p (d :: todo) p.gone := h.working _ _ _ (by rw [phase]; rfl)
    by_cases fresh : w.fresh d
    · rw [if_pos fresh]
      exact .goto_next h.toSound _ rfl fun _ _ _ work => by
        cases work
        exact working.put (put_of_fresh working.start fresh)
    · rw [if_neg fresh]
      exact h.putting phase f
  · rename_i p d todo phase
    exact h.creating phase f
  · rename_i p d todo phase
    exact h.status phase f
  · rename_i p phase
    exact .goto_next h.toSound _ rfl fun _ _ _ work => by
      cases work
      exact h.working _ _ _ (by rw [phase]; rfl)
  · rename_i p name names phase
    exact h.deleting phase f

/-- The names of what a pass puts are those of the drives. -/
lemma names_docs (w : World) :
    (docs node kind w).map Doc.name = w.inventory.entries.map Entry.name := by
  rw [docs, List.map_map]
  rfl

lemma Inv.list (h : w.Inv) :
    (w.goto (.putting (newPass node kind w) (docs node kind w))).Inv := by
  refine .goto_next h.toSound _ rfl fun p todo names work => ?_
  cases work
  refine ⟨le_rfl, ?_, fun n mem => ?_, ⟨[], rfl, by simp⟩, ⟨[], rfl, by simp⟩⟩
  · show ((docs node kind w).map Doc.name).Nodup
    rw [names_docs]
    exact w.inventory.distinct
  · obtain ⟨x, left, rfl⟩ := List.mem_map.mp mem
    have without := List.of_mem_filter left
    rw [decide_eq_true_iff] at without
    exact without.2

lemma lookup_others {m n : String} (other : m ≠ n) (o : Option Object) :
    (w.step node kind (.others n o)).objects.lookup m = w.objects.lookup m := by
  cases o with
  | none => exact AList.lookup_erase_ne other
  | some o => exact AList.lookup_insert_ne other

/-- **Every step keeps what runs keep.** -/
lemma Inv.step (h : w.Inv) (e : Event) : (w.step node kind e).Inv := by
  have elsewhere : ∀ v : World, v.Sound → v.phase = w.phase → v.objects = w.objects →
      v.written = w.written → v.last = w.last → w.now ≤ v.now → v.Inv := by
    intro v sound phase objects written last now
    refine ⟨sound, ?_, ?_⟩
    · rw [phase, objects, last]
      exact h.current
    · intro p todo names work
      rw [phase] at work
      exact (h.working p todo names work).of now (fun _ _ => by rw [written])
        fun _ _ => Or.inl (by rw [last])
  cases e with
  | tick secs =>
    exact elsewhere _ ⟨h.removed, h.there, h.put⟩ rfl rfl rfl rfl (Nat.le_add_right ..)
  | inventory i => exact elsewhere _ ⟨h.removed, h.there, h.put⟩ rfl rfl rfl rfl le_rfl
  | defaults d => exact elsewhere _ ⟨h.removed, h.there, h.put⟩ rfl rfl rfl rfl le_rfl
  | others name o =>
    refine ⟨h.toSound.others name o, fun d at' => ?_, fun p todo names work => ?_⟩
    · have before := h.current d at'
      by_cases same : d.name = name
      · subst same
        have here : (w.step node kind (.others d.name o)).last d.name = .others :=
          Function.update_self ..
        refine ⟨fun put => ?_, fun begun => ?_⟩
        · cases here.symm.trans put
        · cases here.symm.trans begun
      · have last : (w.step node kind (.others name o)).last d.name = w.last d.name :=
          Function.update_of_ne same ..
        rw [last, lookup_others same]
        exact before
    · refine (h.working p todo names work).of le_rfl (fun _ _ => rfl) fun n _ => ?_
      by_cases same : n = name
      · subst same
        exact Or.inr (Or.inr (Function.update_self ..))
      · exact Or.inl (Function.update_of_ne same ..)
  | restart =>
    have forgotten : ({ w with written := fun _ => none } : World).Sound :=
      ⟨h.removed, h.there, fun n t at' written => by cases written⟩
    exact forgotten.idle
  | list =>
    unfold World.step
    simp only
    split
    · exact h.list
    · exact h.list
    · exact h
  | next f => exact h.next f

/-- A controller that has just started, on any objects. -/
def started (objects : AList fun _ : String => Object) (inventory : Inventory)
    (defaults : String → Option Format) (now : ℕ) : World where
  objects := objects
  inventory := inventory
  defaults := defaults
  written := fun _ => none
  phase := .idle
  now := now
  last := fun _ => .others

lemma inv_started (objects : AList fun _ : String => Object) (inventory : Inventory)
    (defaults : String → Option Format) (now : ℕ) :
    (World.started objects inventory defaults now).Inv where
  removed _ gone := by cases gone
  there _ begun := by
    obtain begun | put := begun
    · cases begun
    · cases put
  put _ _ _ none := by cases none
  current _ none := by cases none
  working _ _ _ none := by cases none

/-! ## When a pass ends -/

/-- The pass of a state is that of another, or none. -/
def SamePass (w v : World) : Prop := v.phase.pass = none ∨ v.phase.pass = w.phase.pass

lemma SamePass.of_eq (h : v.phase.pass = w.phase.pass) : w.SamePass v := Or.inr h

lemma SamePass.idle (w v : World) : w.SamePass (v.goto .idle) := Or.inl rfl

/-- A call neither begins a pass nor takes up another. -/
lemma samePass_next (w : World) (f : Fate) : w.SamePass (w.next f) := by
  unfold World.next
  split
  · exact .of_eq rfl
  · exact .of_eq rfl
  · rename_i p phase
    exact .of_eq (by rw [phase]; rfl)
  · rename_i p d todo phase
    by_cases fresh : w.fresh d
    · rw [if_pos fresh]
      exact .of_eq (by rw [phase]; rfl)
    · rw [if_neg fresh]
      refine call_cases (.of_eq (by rw [phase_patch])) (.of_eq ?_) (.idle ..) (.idle ..) f
      rw [phase, World.goto]
      split
      · rfl
      · rfl
  · rename_i p d todo phase
    exact call_cases (P := w.SamePass) (.of_eq (by rw [phase_create]))
      (.of_eq (by rw [phase]; rfl)) (.idle ..) (.idle ..) f
  · rename_i p d todo phase
    refine call_cases (.of_eq (by rw [phase_patchStatus])) ?_ (.idle ..) (.idle ..) f
    split
    · exact .of_eq (by rw [phase]; rfl)
    · exact .idle ..
  · rename_i p phase
    exact .of_eq (by rw [phase]; rfl)
  · rename_i p name names phase
    exact call_cases (P := w.SamePass) (.of_eq rfl) (.of_eq (by rw [phase]; rfl)) (.idle ..)
      (.idle ..) f

/-- **A pass began with a list of the objects.** -/
lemma began (w₀ : World) (idle : w₀.phase = .idle) (es : List Event) {p : Pass}
    (now : (Runs.after (World.step node kind) w₀ es).phase.pass = some p) :
    ∃ before rest, es = before ++ .list :: rest ∧
      p = newPass node kind (Runs.after (World.step node kind) w₀ before) := by
  induction es using List.reverseRecOn with
  | nil =>
    rw [Runs.after_nil, idle] at now
    cases now
  | append_singleton es e ih =>
    have earlier : (Runs.after (World.step node kind) w₀ es).phase.pass = some p →
        ∃ before rest, es ++ [e] = before ++ .list :: rest ∧
          p = newPass node kind (Runs.after (World.step node kind) w₀ before) := by
      intro same
      obtain ⟨before, rest, rfl, new⟩ := ih same
      exact ⟨before, rest ++ [e], by simp, new⟩
    rw [Runs.after_append, Runs.after_cons, Runs.after_nil] at now
    set w := Runs.after (World.step node kind) w₀ es with hw
    cases e with
    | tick secs => exact earlier now
    | inventory i => exact earlier now
    | defaults d => exact earlier now
    | others name o => exact earlier now
    | restart => cases now
    | list =>
      have cases : (w.step node kind .list).phase = w.phase ∨ (w.step node kind .list) =
          w.goto (.putting (newPass node kind w) (docs node kind w)) := by
        unfold World.step
        simp only
        split
        · exact Or.inr rfl
        · exact Or.inr rfl
        · exact Or.inl rfl
      obtain same | new := cases
      · rw [same] at now
        exact earlier now
      · rw [new] at now
        exact ⟨es, [], rfl, (Option.some.inj now).symm⟩
    | next f =>
      obtain none | same := w.samePass_next f
      · cases none.symm.trans now
      · exact earlier (same.symm.trans now)

end World

/-- **After a pass each drive is shown, and no forgotten one is there.** In any run of a controller
since its start, with calls that fail and with others who write in between: when a pass ends, it
began with a list of the objects; what it had to put, an object for each drive there was then, it
put, or had put so shortly before it began, and the object shows that, but for when the drive was
seen, unless others wrote to it since or a put of it was cut off; and an object of this node that
was listed without a drive is not there, unless others made it again. -/
theorem shown_after_pass (objects : AList fun _ : String => Object) (inventory : Inventory)
    (defaults : String → Option Format) (t : ℕ) (es : List Event) (p : Pass)
    (ended : (Runs.after (World.step node kind) (World.started objects inventory defaults t) es).phase =
      .done p) :
    let w := Runs.after (World.step node kind) (World.started objects inventory defaults t) es
    (∃ before rest, es = before ++ .list :: rest ∧ p = World.newPass node kind
      (Runs.after (World.step node kind) (World.started objects inventory defaults t) before)) ∧
    (∀ d ∈ p.docs, ∃ at', w.written d.name = some (d.fingerprint, at') ∧
      p.start < at' + refresh ∧
      (w.last d.name = .put → ∃ o, w.objects.lookup d.name = some o ∧
        d.fingerprint.ShownBy o)) ∧
    ∀ n ∈ p.gone, w.last n ≠ .others → w.objects.lookup n = none := by
  intro w
  have inv : w.Inv := Runs.keeps (fun _ e h => h.step e) (World.inv_started ..) es
  have working : w.Working p [] [] := inv.working _ _ _ (by rw [ended]; rfl)
  refine ⟨World.began _ rfl es (by rw [ended]; rfl), fun d mem => ?_, fun n mem alone => ?_⟩
  · obtain ⟨done, split, puts⟩ := working.puts
    rw [List.append_nil] at split
    obtain ⟨at', written, start⟩ := puts d (split ▸ mem)
    exact ⟨at', written, start, inv.put d.name _ at' written⟩
  · obtain ⟨done, split, deleted⟩ := working.deleted
    rw [List.append_nil] at split
    exact inv.removed n ((deleted n (split ▸ mem)).resolve_right alone)

/-- A drive with its path for a status. -/
def Entry.testFixture : Entry where
  drive := Drive.testFixture ⟨⟨0⟩⟩ "sda"
  status _ := [("path", .str "/dev/sda")]
  proper _ := by simp [Json.ProperMembers]

/-- A drive whose object was not there yet. -/
theorem shown_after_first_pass :
    let inventory : Inventory := ⟨[.testFixture], List.pairwise_singleton _ _⟩
    let first := World.started ∅ inventory (fun _ => none) 0
    let w := Runs.after (World.step "n1" fun _ => "sashdd") first
      (.list :: List.replicate 5 (.next .served))
    let d := apiserverDrive "n1" (fun _ => "sashdd") .testFixture none "preference"
    ∃ o, w.objects.lookup d.name = some o ∧ d.fingerprint.ShownBy o := by
  intro inventory first w d
  have ended : w.phase = .done (World.newPass "n1" (fun _ => "sashdd") first) := rfl
  have shown := (shown_after_pass ∅ inventory (fun _ => none) 0
    (.list :: List.replicate 5 (.next .served)) _ ended).2.1 d (List.mem_singleton.mpr rfl)
  obtain ⟨at', -, -, put⟩ := shown
  exact put rfl

/-! ## What a pass leaves alone -/

/-- What is the user's in an object is as it was: the fields of the spec and the labels that the
node does not write. -/
structure Kept (o o' : Object) : Prop where
  spec : ∀ k, k ∉ nodeFields → o'.spec.index k = o.spec.index k
  labels : ∀ k, (∀ s, k ≠ "storm.io/" ++ s) → o'.labels.index k = o.labels.index k

lemma Kept.refl (o : Object) : Kept o o := ⟨fun _ _ => rfl, fun _ _ => rfl⟩

lemma Kept.trans {o o' o'' : Object} (h : Kept o o') (h' : Kept o' o'') : Kept o o'' :=
  ⟨fun k user => (h'.spec k user).trans (h.spec k user),
    fun k user => (h'.labels k user).trans (h.labels k user)⟩

/-- What is put of a drive names nothing of the user's. -/
lemma Doc.kept (d : Doc) (o : Object) (status : Json) :
    Kept o ⟨o.labels.merge (.obj d.labels), o.spec.merge (.obj d.spec), status⟩ := by
  constructor
  · intro k user
    refine Json.index_merge (fun mem => user ?_) _
    obtain ⟨m, named, rfl⟩ := List.mem_map.mp mem
    exact d.spec_own m named
  · intro k user
    refine Json.index_merge (fun mem => ?_) _
    obtain ⟨m, named, rfl⟩ := List.mem_map.mp mem
    obtain ⟨s, own⟩ := d.labels_own m named
    exact user s own

namespace World

variable {w v : World} {d : Doc} {n : String}

/-- An object that is there before and after is kept. -/
def Keeps (w : World) (n : String) (v : World) : Prop :=
  ∀ o o', w.objects.lookup n = some o → v.objects.lookup n = some o' → Kept o o'

lemma Keeps.of_eq (h : v.objects.lookup n = w.objects.lookup n) : w.Keeps n v := by
  intro o o' before after
  rw [h] at after
  obtain rfl := Option.some.inj (before.symm.trans after)
  exact .refl o

/-- What puts no other object, and of this one only what is kept. -/
lemma Keeps.insert {o : Object} (name : String) (o' : Object)
    (found : w.objects.lookup name = some o) (kept : Kept o o')
    (after : v.objects = w.objects.insert name o') : w.Keeps n v := by
  by_cases same : n = name
  · subst same
    intro a b before now
    rw [after, AList.lookup_insert] at now
    obtain rfl := Option.some.inj now
    obtain rfl := Option.some.inj (found.symm.trans before)
    exact kept
  · exact .of_eq (by rw [after]; exact AList.lookup_insert_ne same)

lemma keeps_patch : w.Keeps n (w.patch d) := by
  cases found : w.objects.lookup d.name with
  | none => exact .of_eq (by rw [patch_of_none found])
  | some o => exact .insert d.name _ found (d.kept o o.status) (by rw [patch_of_some found])

lemma keeps_create : w.Keeps n (w.create d) := by
  cases found : w.objects.lookup d.name with
  | some o => exact .of_eq (by rw [create_of_some found])
  | none =>
    by_cases same : n = d.name
    · subst same
      intro o o' before
      cases found.symm.trans before
    · exact .of_eq (by rw [create_of_none found]; exact AList.lookup_insert_ne same)

lemma keeps_patchStatus : w.Keeps n (w.patchStatus d) := by
  cases found : w.objects.lookup d.name with
  | none => exact .of_eq (by rw [patchStatus_of_none found])
  | some o =>
    exact .insert d.name { o with status := o.status.merge (.obj d.status) } found
      ⟨fun _ _ => rfl, fun _ _ => rfl⟩ (by rw [patchStatus_of_some found])

lemma keeps_remove (name : String) : w.Keeps n (w.remove name) := by
  by_cases same : n = name
  · subst same
    intro o o' _ after
    have gone : (w.remove n).objects.lookup n = none := AList.lookup_erase ..
    cases gone.symm.trans after
  · exact .of_eq (AList.lookup_erase_ne same)

lemma keeps_next (f : Fate) : w.Keeps n (w.next f) := by
  unfold World.next
  split
  · exact .of_eq rfl
  · exact .of_eq rfl
  · exact .of_eq rfl
  · rename_i p d todo _
    by_cases fresh : w.fresh d
    · rw [if_pos fresh]
      exact .of_eq rfl
    · rw [if_neg fresh]
      exact call_cases (P := w.Keeps n) keeps_patch keeps_patch (.of_eq rfl) keeps_patch f
  · exact call_cases (P := w.Keeps n) keeps_create keeps_create (.of_eq rfl) keeps_create f
  · refine call_cases (P := w.Keeps n) keeps_patchStatus ?_ (.of_eq rfl) keeps_patchStatus f
    split
    · exact keeps_patchStatus
    · exact keeps_patchStatus
  · exact .of_eq rfl
  · rename_i name _ _
    exact call_cases (P := w.Keeps n) (keeps_remove name) (keeps_remove name) (.of_eq rfl)
      (keeps_remove name) f

/-- **What others do not do to an object keeps what is the user's in it.** -/
lemma keeps_step {e : Event} (quiet : ∀ o, e ≠ .others n o) : w.Keeps n (w.step node kind e) := by
  cases e with
  | others name o =>
    refine .of_eq (lookup_others (fun same => ?_) o)
    exact quiet o (by rw [same])
  | list =>
    refine .of_eq ?_
    unfold World.step
    simp only
    split
    · rfl
    · rfl
    · rfl
  | next f => exact keeps_next f
  | _ => exact .of_eq rfl

end World

/-- **What is the user's in an object stays as it is.** In any run in which an object is there all
the time and nobody else writes to it, every field of its spec but the three that the node reports,
and every label that is not of this system, is at the end as it was at first. -/
theorem user_fields_kept (w : World) (n : String) (es : List Event)
    (quiet : ∀ o, .others n o ∉ es)
    (there : Runs.Throughout (World.step node kind) (fun w => w.objects.lookup n ≠ none) w es)
    {o o' : Object} (first : w.objects.lookup n = some o)
    (last : (Runs.after (World.step node kind) w es).objects.lookup n = some o') : Kept o o' := by
  induction es generalizing w o with
  | nil =>
    obtain rfl := Option.some.inj (first.symm.trans last)
    exact .refl o
  | cons e es ih =>
    obtain ⟨middle, found⟩ := Option.ne_none_iff_exists'.mp there.2.first
    have step : Kept o middle := World.keeps_step (fun o same =>
      quiet o (same ▸ List.mem_cons_self ..)) o middle first found
    exact step.trans (ih (w.step node kind e) (fun o mem => quiet o (List.mem_cons_of_mem _ mem))
      there.2 found last)

/-- A drive whose locate LED a user turned on. -/
theorem identify_kept :
    let first := World.started (AList.insert Entry.testFixture.name
      ⟨.obj [], .obj [("identify", .bool true)], .null⟩ ∅)
      ⟨[.testFixture], List.pairwise_singleton _ _⟩ (fun _ => none) 0
    ∀ o, (Runs.after (World.step "n1" fun _ => "sashdd") first
      (.list :: List.replicate 4 (.next .served))).objects.lookup Entry.testFixture.name = some o →
      o.spec.index "identify" = .bool true := by
  intro first o last
  have kept := user_fields_kept first Entry.testFixture.name
    (.list :: List.replicate 4 (.next .served)) (fun o mem => by simp at mem)
    ⟨Option.some_ne_none _, Option.some_ne_none _, Option.some_ne_none _, Option.some_ne_none _,
      Option.some_ne_none _, Option.some_ne_none _⟩ rfl last
  exact kept.spec "identify" (by decide)

/-! ## The objects of others -/

/-- What others made of an object, after what was there. -/
def othersWrote (n : String) (o : Option Object) : Event → Option Object
  | .others name o' => if name = n then o' else o
  | _ => o

namespace World

variable {w v : World} {d : Doc} {n : String}

/-- The inventory and an object are as they were. -/
structure Leaves (w : World) (n : String) (v : World) : Prop where
  inventory : v.inventory = w.inventory
  found : v.objects.lookup n = w.objects.lookup n

lemma Leaves.refl (w : World) (n : String) : w.Leaves n w := ⟨rfl, rfl⟩

lemma Leaves.goto (h : w.Leaves n v) (q : Phase) : w.Leaves n (v.goto q) := ⟨h.inventory, h.found⟩

lemma leaves_patch (other : n ≠ d.name) : w.Leaves n (w.patch d) := by
  cases found : w.objects.lookup d.name with
  | none =>
    rw [patch_of_none found]
    exact .refl w n
  | some o =>
    rw [patch_of_some found]
    exact ⟨rfl, AList.lookup_insert_ne other⟩

lemma leaves_create (other : n ≠ d.name) : w.Leaves n (w.create d) := by
  cases found : w.objects.lookup d.name with
  | some o =>
    rw [create_of_some found]
    exact .refl w n
  | none =>
    rw [create_of_none found]
    exact ⟨rfl, AList.lookup_insert_ne other⟩

lemma leaves_patchStatus (other : n ≠ d.name) : w.Leaves n (w.patchStatus d) := by
  cases found : w.objects.lookup d.name with
  | none =>
    rw [patchStatus_of_none found]
    exact .refl w n
  | some o =>
    rw [patchStatus_of_some found]
    exact ⟨rfl, AList.lookup_insert_ne other⟩

/-- A call is about what the pass has still to do. -/
lemma leaves_next (f : Fate)
    (apart : ∀ p todo names, w.phase.work = some (p, todo, names) →
      n ∉ todo.map Doc.name ∧ n ∉ names) : w.Leaves n (w.next f) := by
  have head : ∀ {p : Pass} {d : Doc} {todo : List Doc} {names : List String},
      w.phase.work = some (p, d :: todo, names) → n ≠ d.name := by
    rintro p d todo names work rfl
    exact (apart _ _ _ work).1 (List.mem_cons_self ..)
  have same := Leaves.refl w n
  unfold World.next
  split
  · exact same
  · exact same
  · exact same.goto _
  · rename_i p d todo phase
    have patched := leaves_patch (w := w) (head (by rw [phase]; rfl))
    by_cases fresh : w.fresh d
    · rw [if_pos fresh]
      exact same.goto _
    · rw [if_neg fresh]
      exact call_cases (P := w.Leaves n) patched (patched.goto _) (same.goto _) (patched.goto _) f
  · rename_i p d todo phase
    have created := leaves_create (w := w) (head (by rw [phase]; rfl))
    exact call_cases (P := w.Leaves n) created (created.goto _) (same.goto _) (created.goto _) f
  · rename_i p d todo phase
    have written := leaves_patchStatus (w := w) (head (by rw [phase]; rfl))
    refine call_cases (P := w.Leaves n) written ?_ (same.goto _) (written.goto _) f
    split
    · exact ⟨written.inventory, written.found⟩
    · exact written.goto _
  · exact same.goto _
  · rename_i p name names phase
    have other : n ≠ name := by
      rintro rfl
      exact (apart _ _ _ (by rw [phase]; rfl)).2 (List.mem_cons_self ..)
    have gone : w.Leaves n (w.remove name) := ⟨rfl, AList.lookup_erase_ne other⟩
    exact call_cases (P := w.Leaves n) gone ⟨rfl, gone.found⟩ (same.goto _) (gone.goto _) f

/-- An object is of none of the node's drives, and no pass has to do with it. -/
structure Foreign (w : World) (n : String) (o : Option Object) : Prop where
  found : w.objects.lookup n = o
  drives : ∀ e ∈ w.inventory.entries, e.name ≠ n
  pass : ∀ p, w.phase.pass = some p → n ∉ p.docs.map Doc.name ∧ n ∉ p.gone

lemma pass_of_work {q : Phase} {p : Pass} {todo : List Doc} {names : List String}
    (h : q.work = some (p, todo, names)) : q.pass = some p := by
  rw [Phase.pass, h]
  rfl

/-- A pass that begins has nothing to do with an object that is not labelled with the node. -/
lemma Foreign.list (kind : DriveKind → String) {o : Option Object} (h : w.Foreign n o)
    (label : ∀ x, o = some x →
      Json.readString (x.labels.index "storm.io/node") ≠ labelValue node) :
    n ∉ (newPass node kind w).docs.map Doc.name ∧ n ∉ (newPass node kind w).gone := by
  constructor
  · show n ∉ (docs node kind w).map Doc.name
    rw [names_docs]
    intro mem
    obtain ⟨e, there, same⟩ := List.mem_map.mp mem
    exact h.drives e there same
  · intro mem
    obtain ⟨x, left, rfl⟩ := List.mem_map.mp mem
    have taken := List.of_mem_filter left
    rw [decide_eq_true_iff] at taken
    obtain ⟨e, entry, rfl⟩ := List.mem_map.mp (List.mem_of_mem_filter (List.mem_of_mem_filter left))
    have found : w.objects.lookup e.1 = some e.2 := AList.mem_lookup_iff.mpr entry
    exact label e.2 (h.found.symm.trans found) taken.1

lemma Foreign.step {o : Option Object} (h : w.Foreign n o) (inv : w.Inv) (e : Event)
    (label : ∀ x, o = some x →
      Json.readString (x.labels.index "storm.io/node") ≠ labelValue node)
    (later : ∀ i, e = .inventory i → ∀ e ∈ i.entries, e.name ≠ n) :
    (w.step node kind e).Foreign n (othersWrote n o e) := by
  cases e with
  | tick secs => exact ⟨h.found, h.drives, h.pass⟩
  | inventory i => exact ⟨h.found, later i rfl, h.pass⟩
  | defaults d => exact ⟨h.found, h.drives, h.pass⟩
  | others name o' =>
    refine ⟨?_, h.drives, h.pass⟩
    show _ = if name = n then o' else o
    split_ifs with same
    · subst same
      cases o' with
      | none => exact AList.lookup_erase ..
      | some x => exact AList.lookup_insert ..
    · rw [lookup_others (fun eq => same eq.symm)]
      exact h.found
  | restart => exact ⟨h.found, h.drives, fun p none => by cases none⟩
  | list =>
    have begun := h.list kind label
    unfold World.step
    simp only
    split
    · exact ⟨h.found, h.drives, fun p new => by cases new; exact begun⟩
    · exact ⟨h.found, h.drives, fun p new => by cases new; exact begun⟩
    · exact ⟨h.found, h.drives, h.pass⟩
  | next f =>
    have left : w.Leaves n (w.next f) := by
      refine leaves_next f fun p todo names work => ?_
      have working := inv.working p todo names work
      obtain ⟨done, docs, -⟩ := working.puts
      obtain ⟨done', gone, -⟩ := working.deleted
      have apart := h.pass p (pass_of_work work)
      rw [docs, gone, List.map_append] at apart
      exact ⟨fun mem => apart.1 (List.mem_append_right _ mem),
        fun mem => apart.2 (List.mem_append_right _ mem)⟩
    refine ⟨left.found.trans h.found, ?_, fun p now => ?_⟩
    · have same : (w.step node kind (.next f)).inventory = w.inventory := left.inventory
      rw [same]
      exact h.drives
    · obtain none | same := w.samePass_next f
      · cases none.symm.trans now
      · exact h.pass p (same.symm.trans now)

end World

/-- **The objects of others are what others wrote.** In any run of a controller since its start, an
object by whose name this node never had a drive, and that nobody labels with the node, is at the
end what others wrote last: passes neither put nor delete it. -/
theorem foreign_left_alone (objects : AList fun _ : String => Object) (inventory : Inventory)
    (defaults : String → Option Format) (t : ℕ) (es : List Event) (n : String)
    (drives : ∀ e ∈ inventory.entries, e.name ≠ n)
    (later : ∀ i, .inventory i ∈ es → ∀ e ∈ i.entries, e.name ≠ n)
    (label : ∀ x, objects.lookup n = some x ∨ .others n (some x) ∈ es →
      Json.readString (x.labels.index "storm.io/node") ≠ labelValue node) :
    (Runs.after (World.step node kind) (World.started objects inventory defaults t)
      es).objects.lookup n = es.foldl (othersWrote n) (objects.lookup n) := by
  suffices keeps : (Runs.after (World.step node kind) (World.started objects inventory defaults t)
      es).Inv ∧ (Runs.after (World.step node kind) (World.started objects inventory defaults t)
      es).Foreign n (es.foldl (othersWrote n) (objects.lookup n)) ∧
      ∀ x, es.foldl (othersWrote n) (objects.lookup n) = some x →
        objects.lookup n = some x ∨ .others n (some x) ∈ es from keeps.2.1.found
  induction es using List.reverseRecOn with
  | nil => exact ⟨World.inv_started .., ⟨rfl, drives, fun p none => by cases none⟩, fun x => Or.inl⟩
  | append_singleton es e ih =>
    obtain ⟨inv, foreign, wrote⟩ := ih
      (fun i mem => later i (List.mem_append_left _ mem))
      (fun x hx => label x (hx.imp_right (List.mem_append_left _)))
    rw [Runs.after_append, Runs.after_cons, Runs.after_nil, List.foldl_append, List.foldl_cons,
      List.foldl_nil]
    have last : e ∈ es ++ [e] := List.mem_append_right _ (List.mem_cons_self ..)
    refine ⟨inv.step e, foreign.step inv e (fun x hx => label x ((wrote x hx).imp_right
      (List.mem_append_left _))) (fun i same => later i (same ▸ last)), fun x hx => ?_⟩
    have before : es.foldl (othersWrote n) (objects.lookup n) = some x →
        objects.lookup n = some x ∨ .others n (some x) ∈ es ++ [e] := fun hx =>
      (wrote x hx).imp_right (List.mem_append_left _)
    cases e with
    | others name o =>
      have new : (if name = n then o else es.foldl (othersWrote n) (objects.lookup n)) = some x :=
        hx
      split_ifs at new with same
      · subst same
        subst new
        exact Or.inr last
      · exact before new
    | _ => exact before hx

/-- An object of another node, beside the drive of this one. -/
theorem other_node_left_alone :
    let objects : AList fun _ : String => Object := AList.insert "d2"
      ⟨.obj [("storm.io/component", .str "stormdrive"), ("storm.io/node", .str "n2")],
        .null, .null⟩ ∅
    (Runs.after (World.step "n1" fun _ => "sashdd") (World.started objects
      ⟨[.testFixture], List.pairwise_singleton _ _⟩ (fun _ => none) 0)
      (.list :: List.replicate 5 (.next .served))).objects.lookup "d2" = objects.lookup "d2" := by
  intro objects
  refine foreign_left_alone objects ⟨[.testFixture], List.pairwise_singleton _ _⟩ (fun _ => none) 0
    (.list :: List.replicate 5 (.next .served)) "d2" ?_ ?_ ?_
  · intro e mem
    obtain rfl := List.mem_singleton.mp mem
    decide
  · intro i mem
    simp at mem
  · rintro x (found | mem)
    · obtain rfl := Option.some.inj (found.symm.trans (rfl : objects.lookup "d2" = some _))
      decide
    · simp at mem

end DriveObjects

end StormDrive
