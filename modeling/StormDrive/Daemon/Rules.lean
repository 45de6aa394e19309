import StormDrive.Daemon.Scope

set_option relaxedAutoImplicit false
set_option autoImplicit false

/-!
# Rules for the tasks of the daemon

The weakest precondition of the tasks for a protocol that looks only at what the fleet's tasks do:
all other tasks keep to it, and leave the mark as it is.

## Main definitions

* `Back` — the part comes back to the mark that it begins with.
* `Overlooks` — at the mark, a protocol does not look at what has nothing to do with the fleet.

## Main results

* `wp_andThen`, `wp_when`, `wp_forAll` — the rules for the parts of a task.
* `back_fleetTick` — the fleet's tick comes back to the mark when its parts do.
* `wp_entry` — what is left to show of a protocol: the fleet's tasks and the enrolment.
-/

namespace StormDrive

open Interleave Interleave.Prog Work

section Rules

variable {Mark : Type} {P : Protocol Op Op.Ans Req Mark} {m : Mark} {α β : Type}

/-! ## Parts -/

/-- A part that goes on when it succeeded. -/
lemma wp_andThen {p : Work (Except String α)} {f : α → Work (Except String β)}
    {Q : Except String β → Mark → Prop}
    (h : wp P p (fun r m' => match r with
      | .ok a => wp P (f a) Q m'
      | .error why => Q (.error why) m') m) : wp P (andThen p f) Q m := by
  refine wp_seq _ (wp_mono _ (fun r m' hr => ?_) h)
  cases r with
  | ok a => exact hr
  | error why => exact hr

/-- Something that is done only when a condition holds. -/
lemma wp_when {c : Prop} [Decidable c] {p : Work Unit} {Q : Unit → Mark → Prop}
    (h : c → wp P p Q m) (hno : ¬ c → Q () m) : wp P (when c p) Q m := by
  unfold Work.when
  split
  · next hc => exact h hc
  · next hc => exact hno hc

/-- One of two programs. -/
lemma wp_ite {c : Prop} [Decidable c] {p q : Work α} {Q : α → Mark → Prop}
    (hp : c → wp P p Q m) (hq : ¬ c → wp P q Q m) : wp P (if c then p else q) Q m := by
  split
  · next hc => exact hp hc
  · next hc => exact hq hc

/-- An answer that is not used. -/
lemma wp_ignore {p : Work α} {Q : Unit → Mark → Prop} (h : wp P p (fun _ m' => Q () m') m) :
    wp P (ignore p) Q m :=
  wp_seq _ h

/-- A program for each element of a list, each of which comes back to the mark. -/
lemma wp_forAll {p : List α → Work Unit} {f : α → Work Unit} (hnil : p [] = pure ())
    (hcons : ∀ a l, p (a :: l) = f a >>= fun _ => p l) {l : List α} {Q : Unit → Mark → Prop}
    (hf : ∀ a ∈ l, wp P (f a) (fun _ m' => m' = m) m) (hQ : Q () m) : wp P (p l) Q m := by
  induction l with
  | nil =>
    rw [hnil]
    exact hQ
  | cons a l ih =>
    rw [hcons]
    refine wp_seq _ (wp_mono _ (fun _ m' hm => ?_) (hf a List.mem_cons_self))
    rw [hm]
    exact ih fun b hb => hf b (List.mem_cons_of_mem a hb)

/-- The part comes back to the mark, whatever happens in between. -/
abbrev Back (P : Protocol Op Op.Ans Req Mark) (m : Mark) (p : Work α) : Prop :=
  wp P p (fun _ m' => m' = m) m

/-- After a part that comes back. -/
lemma Back.seq {p : Work α} {f : α → Work β} {Q : β → Mark → Prop} (hp : Back P m p)
    (hf : ∀ a, wp P (f a) Q m) : wp P (p >>= f) Q m :=
  wp_seq _ (wp_mono _ (fun a _ hm => hm ▸ hf a) hp)

/-- After a list that is taken and worked off. -/
lemma Back.pair {p : Work α} {q : α → Work Unit} {f : Unit → Work β} {Q : β → Mark → Prop}
    (h : Back P m (p >>= q)) (hf : wp P (f ()) Q m) :
    wp P (p >>= fun a => q a >>= fun u => f u) Q m := by
  refine wp_seq _ (wp_mono _ (fun a m' ha => ?_) ((wp_bind P p q _ m).mp h))
  exact wp_seq _ (wp_mono _ (fun _ _ hm => hm ▸ hf) ha)

/-- What comes after a part that comes back and succeeded. -/
lemma Back.andThen {p : Work (Except String α)} {f : α → Work (Except String β)}
    (hp : Back P m p) (hf : ∀ a, Back P m (f a)) : Back P m (andThen p f) := by
  refine hp.seq fun r => ?_
  cases r with
  | ok a => exact hf a
  | error why => rfl

/-- An operation that leaves the mark. -/
lemma back_op {o : Op} {f : o.Ans → Work α} {Q : α → Mark → Prop}
    (ho : P.may m o ∧ ∀ x, P.next m o x = m) (hf : ∀ x, wp P (f x) Q m) :
    wp P (perform o >>= f) Q m := by
  refine wp_op_bind _ ho.1 fun x _ => ?_
  rw [ho.2 x]
  exact hf x

/-- A program for each element of a list comes back when each does. -/
lemma back_forAll {p : List α → Work Unit} {f : α → Work Unit} (hnil : p [] = pure ())
    (hcons : ∀ a l, p (a :: l) = f a >>= fun _ => p l) (l : List α)
    (hf : ∀ a ∈ l, Back P m (f a)) : Back P m (p l) :=
  wp_forAll hnil hcons hf rfl

/-- At the mark, the protocol does not look at what has nothing to do with the fleet. -/
structure Overlooks (P : Protocol Op Op.Ans Req Mark) (m : Mark) : Prop where
  may : ∀ o : Op, o.offFleet = true → P.may m o
  next : ∀ (o : Op) (x : o.Ans), o.offFleet = true → P.next m o x = m

variable (hoff : Overlooks P m)
include hoff

/-- What has nothing to do with the fleet leaves the mark. -/
lemma wp_offFleet {p : Work α} {Q : α → Mark → Prop} (hp : OffFleet p) (hQ : ∀ a, Q a m) :
    wp P p Q m :=
  wp_of_only P hp hoff.may hoff.next hQ

/-- A task that has nothing to do with the fleet. -/
lemma wp_once_offFleet {p : Work Unit} (hp : OffFleet p) (hdone : P.done m) :
    wp P (once p) (Ends P) m :=
  wp_seq _ (wp_offFleet hoff hp fun _ => hdone)

/-! ## The loop of a job's part -/

variable {cfg : Settings} {job : JobId} {idx : Nat} {steps : List Step} {id : DriveId}
  {dn un : Bool}

/-- A step comes back to the mark when an enrolment does. -/
lemma wp_runStep {ref : StepRef} {d : Drive} {step : Step} {Q : Except String String → Mark → Prop}
    (henroll : ∀ d tier role steps, Back P m (stepEnroll cfg d tier role steps))
    (hQ : ∀ r, Q r m) : wp P (runStep cfg ref d step steps) Q m := by
  by_cases hstep : ∃ tier role, step = .enroll tier role
  · obtain ⟨tier, role, rfl⟩ := hstep
    exact wp_mono _ (fun r m' hm => hm ▸ hQ r) (henroll d tier role steps)
  · have hno : ∀ tier role, step ≠ .enroll tier role := fun tier role h => hstep ⟨tier, role, h⟩
    refine wp_offFleet hoff ((ofStep_runStep ref d hno steps).mono fun o ho => ?_) hQ
    exact (Bool.and_eq_true_iff.mp ho).2

lemma wp_approveAndRun {k : Nat} {step : Step} {Q : Option (Except String String) → Mark → Prop}
    (henroll : ∀ d tier role steps, Back P m (stepEnroll cfg d tier role steps))
    (hQ : ∀ r, Q r m) : wp P (approveAndRun cfg job idx k steps id dn un step) Q m := by
  have hop : ∀ {o : Op} {α : Type} {f : o.Ans → Work α} {Q : α → Mark → Prop},
      o.offFleet = true → (∀ x, wp P (f x) Q m) → wp P (perform o >>= f) Q m :=
    fun ho hf => back_op ⟨hoff.may _ ho, fun x => hoff.next _ x ho⟩ hf
  have hfail : ∀ why, wp P (do fail cfg job idx why; pure none) Q m :=
    fun why => wp_seq _ (wp_offFleet hoff (offFleet_fail _ _ _) fun _ => hQ none)
  refine hop rfl fun r => ?_
  cases r with
  | none => exact hfail _
  | some d =>
    refine wp_seq _ (wp_offFleet hoff (ofDrive_context d).offFleet fun cx => ?_)
    split
    · exact hfail _
    · refine hop rfl fun who => ?_
      cases who with
      | none => exact hfail _
      | some who =>
        refine hop rfl fun r => ?_
        cases r with
        | denied why => exact hfail _
        | unavailable why =>
          exact hop rfl fun _ => wp_seq _ (wp_offFleet hoff offFleet_save fun _ => hQ none)
        | allowed =>
          refine hop rfl fun _ => wp_seq _ (wp_offFleet hoff offFleet_save fun _ => ?_)
          exact wp_seq _ (wp_runStep hoff henroll fun r => hQ (some r))

/-- **The loop of a job's part** comes back to the mark when an enrolment does. -/
theorem wp_driveLoop
    (henroll : ∀ d tier role steps, Back P m (stepEnroll cfg d tier role steps))
    (hdone : P.done m) (hready : P.ready (.driveLoop job idx steps id dn un) m) :
    wp P (driveLoop cfg job idx steps id dn un) (Ends P) m := by
  have hop : ∀ {o : Op} {α : Type} {f : o.Ans → Work α} {Q : α → Mark → Prop},
      o.offFleet = true → (∀ x, wp P (f x) Q m) → wp P (perform o >>= f) Q m :=
    fun ho hf => back_op ⟨hoff.may _ ho, fun x => hoff.next _ x ho⟩ hf
  have hsave : ∀ {r : Option Req}, Ends P r m →
      wp P (do save cfg; pure r) (Ends P) m :=
    fun hr => wp_seq _ (wp_offFleet hoff offFleet_save fun _ => hr)
  have hfail : ∀ why, wp P (do fail cfg job idx why; pure none) (Ends P) m :=
    fun why => wp_seq _ (wp_offFleet hoff (offFleet_fail _ _ _) fun _ => hdone)
  refine hop rfl fun r => ?_
  rcases r with _ | ⟨k, cancelled, st⟩
  · exact hdone
  · refine wp_ite (fun _ => hdone) fun _ => ?_
    cases hk : steps[k]? with
    | none => exact hop rfl fun _ => hsave hdone
    | some step =>
      refine wp_ite (fun _ => hop rfl fun _ => hsave hdone) fun _ => ?_
      refine hop rfl fun r => ?_
      cases r with
      | none => exact hfail _
      | some d =>
        have hend : ∀ r, wp P (finishStep cfg job idx steps id dn un step r) (Ends P) m := by
          intro r
          rcases r with _ | why | note
          · exact hdone
          · exact hfail _
          · exact hop rfl fun _ => hsave hready
        refine hop rfl fun _ => wp_seq _ ?_
        unfold withPermit
        refine wp_ite (fun _ => ?_) fun _ => ?_
        · exact hop rfl fun _ => wp_seq _ (wp_approveAndRun hoff henroll fun r =>
            hop rfl fun _ => hend r)
        · exact hop rfl fun _ => wp_seq _ (wp_approveAndRun hoff henroll fun r =>
            hop rfl fun _ => hend r)

/-! ## The fleet's tick -/

/-- The operation lists the drives that a part of the fleet's tick takes. -/
def Op.lists : Op → Bool
  | .record (.due _) | .record .runningDrains | .record .dueDrains => true
  | _ => false

/-- **The fleet's tick, part by part**: each takes a list and works it off, and comes back to the
mark. -/
theorem wp_tickParts {Q : Unit → Mark → Prop} (hlabels : Back P m syncLabels)
    (hover : Back P m (do
      let due : List Drive ← perform (.record (.due .overcommit))
      pushOvercommit due))
    (hthermal : Back P m (do
      let due : List Drive ← perform (.record (.due .thermal))
      pushThermal due))
    (hhealth : Back P m (pushHealth cfg))
    (hpoll : Back P m (do
      let running : List Drive ← perform (.record .runningDrains)
      pollDrains cfg running))
    (hretry : Back P m (do
      let due : List Drive ← perform (.record .dueDrains)
      retryPendingDrains cfg due))
    (hadd : wp P (autoAdd cfg) (fun _ m' => wp P (persist cfg) Q m') m)
    (hsave : wp P (persist cfg) Q m) : wp P (fleetTick cfg) Q m := by
  have hready : ∀ (what : String) {q : Work Unit}, Back P m q → Back P m (do
      let ready : Bool ← perform (.query (.ready what))
      when ready q) := fun what q hq =>
    back_op ⟨hoff.may _ rfl, fun x => hoff.next _ x rfl⟩ fun _ => wp_when (fun _ => hq) fun _ => rfl
  refine wp_seq _ (wp_when (fun _ => ?_) fun _ => hsave)
  refine hlabels.seq fun _ => Back.seq (hready _ hover) fun _ => ?_
  refine Back.seq (hready _ hthermal) fun _ => ?_
  refine Back.seq (wp_when (fun _ => hhealth) fun _ => rfl) fun _ => ?_
  refine hpoll.pair (hretry.pair ?_)
  exact wp_when (fun _ => hadd) fun _ => hsave

/-- **The fleet's tick**: its parts come back to the mark, and what `auto_add` leads to is saved. -/
theorem wp_fleetTick {Q : Unit → Mark → Prop}
    (hlist : ∀ o : Op, o.lists = true → o ≠ .record (.due .add) →
      P.may m o ∧ ∀ x, P.next m o x = m)
    (hlabel : ∀ d, Back P m (pushLabel d)) (hover : ∀ ds, Back P m (pushOvercommit ds))
    (hthermal : ∀ ds, Back P m (pushThermal ds)) (hreport : ∀ d, Back P m (reportHealth cfg d))
    (hpoll : ∀ d, Back P m (pollDrain cfg d))
    (hdrain : ∀ id reason thenLeave, Back P m (requestDrain cfg id reason thenLeave))
    (hadd : wp P (autoAdd cfg) (fun _ m' => wp P (persist cfg) Q m') m)
    (hsave : wp P (persist cfg) Q m) : wp P (fleetTick cfg) Q m := by
  have hretry : ∀ ds, Back P m (retryPendingDrains cfg ds) := by
    intro ds
    induction ds with
    | nil => rfl
    | cons d rest ih => exact (hdrain _ _ _).seq fun _ => ih
  have hlabels : Back P m syncLabels :=
    back_op (hlist _ rfl nofun) fun due =>
      back_forAll rfl (fun _ _ => rfl) due fun d _ => hlabel d
  have hhealth : Back P m (pushHealth cfg) :=
    back_op (hlist _ rfl nofun) fun due =>
      back_forAll rfl (fun _ _ => rfl) due fun d _ => hreport d
  refine wp_tickParts hoff hlabels (back_op (hlist _ rfl nofun) hover)
    (back_op (hlist _ rfl nofun) hthermal) hhealth ?_ (back_op (hlist _ rfl nofun) hretry) hadd
    hsave
  exact back_op (hlist _ rfl nofun) fun running =>
    back_forAll rfl (fun _ _ => rfl) running fun d _ => hpoll d

/-- **The fleet's tick** comes back to the mark when its parts do. -/
theorem back_fleetTick
    (hlist : ∀ o : Op, o.lists = true → P.may m o ∧ ∀ x, P.next m o x = m)
    (hlabel : ∀ d, Back P m (pushLabel d)) (hover : ∀ ds, Back P m (pushOvercommit ds))
    (hthermal : ∀ ds, Back P m (pushThermal ds)) (hreport : ∀ d, Back P m (reportHealth cfg d))
    (hpoll : ∀ d, Back P m (pollDrain cfg d))
    (hdrain : ∀ id reason thenLeave, Back P m (requestDrain cfg id reason thenLeave))
    (hjoin : ∀ d, Back P m (joinAndPersist cfg d cfg.autoFormatSlab none)) :
    Back P m (fleetTick cfg) := by
  have hsave : wp P (persist cfg) (fun _ m' => m' = m) m :=
    wp_offFleet hoff ofDrive_persist.offFleet fun _ => rfl
  have hadd : Back P m (autoAdd cfg) :=
    back_op (hlist _ rfl) fun candidates => back_forAll (f := fun d => do
      let ready : Bool ← perform (.query (.ready ("auto-add " ++ d.name)))
      when ready (joinAndPersist cfg d cfg.autoFormatSlab none)) rfl (fun _ _ => rfl) candidates
      fun d _ => back_op ⟨hoff.may _ rfl, fun x => hoff.next _ x rfl⟩ fun _ =>
        wp_when (fun _ => hjoin d) fun _ => rfl
  refine wp_fleetTick hoff (fun o ho _ => hlist o ho) hlabel hover hthermal hreport hpoll hdrain ?_
    hsave
  exact wp_mono _ (fun _ m' hm => hm ▸ hsave) hadd

/-! ## Whole requests -/

/-- **What is left to show of a protocol**: every request's program keeps to it, when the fleet's
requests do and an enrolment comes back to the mark. -/
theorem wp_entry
    (henroll : ∀ d tier role steps, Back P m (stepEnroll cfg d tier role steps))
    (hdone : P.done m)
    (hready : ∀ job idx steps id dn un, P.ready (.driveLoop job idx steps id dn un) m) {r : Req}
    (hr : r.ofFleet = false) : wp P (r.entry cfg) (Ends P) m := by
  by_cases hloop : ∃ job idx steps id dn un, r = .driveLoop job idx steps id dn un
  · obtain ⟨job, idx, steps, id, dn, un, rfl⟩ := hloop
    exact wp_driveLoop hoff henroll hdone (hready _ _ _ _ _ _)
  by_cases hrun : ∃ job idx, r = .runDrive job idx
  · obtain ⟨job, idx, rfl⟩ := hrun
    refine wp_op_bind _ (hoff.may _ rfl) fun x _ => ?_
    rw [hoff.next _ x rfl]
    rcases x with _ | ⟨steps, id, dn, un⟩
    · exact hdone
    · exact hready _ _ _ _ _ _
  · obtain ⟨p, hp, hoffp⟩ := offFleet_entry cfg hr
      (fun job idx steps id dn un h => hloop ⟨job, idx, steps, id, dn, un, h⟩)
      fun job idx h => hrun ⟨job, idx, h⟩
    rw [hp]
    exact wp_once_offFleet hoff hoffp hdone

end Rules

end StormDrive
