import StormDrive.Daemon.Holds

set_option relaxedAutoImplicit false
set_option autoImplicit false

/-!
# Every part of a job is in one hand

The invariant over all runs of the daemon that its tasks rely on: a drive's part of a job is in the
hands of one task, and that task never finds it interrupted.

## Main definitions

* `InHand` — the invariant.
* `FreshIds` — a new job does not take the id of one whose tasks are still under way.

## Main results

* `keeps_inHand` — every step keeps the invariant.

## Implementation notes

The id of a job is made of the second and of a counter that starts again with the daemon. That it
is a new one is a condition on the runs.
-/

namespace StormDrive

open Interleave

/-! ## Every step keeps the parts in one hand -/

/-- **Every part is in the hands of one task**, which never finds it interrupted. A recovery is the
only one that has to do with jobs, and no request is served during it. -/
structure InHand (s : State) (ms : List Hold) : Prop where
  exclusive : Exclusive Hold.parts ms
  alone : ∀ i, ms[i]? = some .recovering → ∀ (j : Nat) (n : Hold), j ≠ i → ms[j]? = some n →
    n = .idle
  closed : .recovering ∈ ms → s.sync.serving = false
  live : ∀ m ∈ ms, ∀ p ∈ m.parts, ∀ d, s.store.jobs.drive p.1 p.2 = some d →
    d.state ≠ .interrupted

/-- Without threads nothing is in hand. -/
lemma inHand_nil (s : State) : InHand s [] :=
  ⟨exclusive_nil, by simp, by simp, by simp⟩

/-- A new job does not take the id of one whose tasks are still under way. -/
def FreshIds : Condition Op Op.Ans State World Req Hold
  | _, ms, .turn _ (.job (.insert j)) _ => ∀ m ∈ ms, ∀ p ∈ m.parts, p.1 ≠ j.id
  | _, _, _ => True

section Marks

variable {s : State} {ms : List Hold} {i : Nat} {m m' : Hold} {o : Op} {a : o.Ans}

/-- The section of the recovery is behind it for good. -/
lemma eq_recovering_of_next (h : m.next o a = .recovering) : m = .recovering := by
  unfold Hold.next at h
  split at h
  · cases h
  · cases h
  · cases h
  · split at h
    · cases m <;> simp_all [Hold.released]
    · exact h
  · cases m <;> simp_all [Hold.released]
  · unfold Hold.polled at h
    split at h
    · split at h
      · exact h
      · cases m <;> simp_all [Hold.released]
    · cases m <;> simp_all [Hold.released]
  · cases m <;> simp_all [Hold.handed]
  · cases m <;> simp_all [Hold.handed]
  · exact h

/-- A task that has nothing to do with parts stays so. -/
lemma next_idle (hmay : Hold.may .idle o) : Hold.next .idle o a = .idle := by
  unfold Hold.next
  split
  · cases hmay
  · cases hmay.1
  · cases hmay
  · split <;> rfl
  · rfl
  · unfold Hold.polled
    split
    · split <;> rfl
    · rfl
  · rfl
  · rfl
  · rfl

/-- A task moves: the recovery stays alone. -/
lemma InHand.alone_set (hJ : InHand s ms) (hm : ms[i]? = some m)
    (hrec : m' = .recovering → m = .recovering) (hidle : m = .idle → m' = .idle) (k : Nat)
    (hk : (ms.set i m')[k]? = some .recovering) (j : Nat) (n : Hold) (hjk : j ≠ k)
    (hj : (ms.set i m')[j]? = some n) : n = .idle := by
  rw [List.getElem?_set] at hk hj
  by_cases hik : i = k
  · subst hik
    rw [if_neg (Ne.symm hjk)] at hj
    split at hk
    · split at hk
      · cases hk
        exact hJ.alone i (hrec rfl ▸ hm) j n hjk hj
      · cases hk
    · exact hJ.alone i hk j n hjk hj
  · rw [if_neg hik] at hk
    by_cases hij : i = j
    · subst hij
      have hmi : m = .idle := hJ.alone k hk i m hjk hm
      split at hj
      · split at hj
        · cases hj
          exact hidle hmi
        · cases hj
      · rw [hm] at hj
        cases hj
        exact hmi
    · rw [if_neg hij] at hj
      exact hJ.alone k hk j n hjk hj

/-- Unless it is idle, a task is not there beside the recovery. -/
lemma InHand.recovering_notMem (hJ : InHand s ms) (hm : ms[i]? = some m) (hidle : m ≠ .idle)
    (hrec : m ≠ .recovering) : .recovering ∉ ms := by
  intro hmem
  obtain ⟨k, hk⟩ := List.getElem?_of_mem hmem
  by_cases hik : i = k
  · subst hik
    rw [hm] at hk
    cases hk
    exact hrec rfl
  · exact hidle (hJ.alone k hk i m hik hm)

/-- A task is added while no recovery is under way, or it is idle. -/
lemma InHand.alone_concat (hJ : InHand s ms) {child : Hold} (hchild : child ≠ .recovering)
    (h : child = .idle ∨ .recovering ∉ ms) (k : Nat)
    (hk : (ms ++ [child])[k]? = some .recovering) (j : Nat) (n : Hold) (hjk : j ≠ k)
    (hj : (ms ++ [child])[j]? = some n) : n = .idle := by
  have hlast : ∀ (i : Nat) (x : Hold), (ms ++ [child])[i]? = some x → ms[i]? = some x ∨ x = child := by
    intro i x hx
    rw [List.getElem?_append] at hx
    split at hx
    · exact .inl hx
    · exact .inr (List.mem_singleton.mp (List.mem_of_getElem? hx))
  have hk' : ms[k]? = some .recovering := by
    rcases hlast k _ hk with hk | hk
    · exact hk
    · exact absurd hk.symm hchild
  rcases hlast j n hj with hj | rfl
  · exact hJ.alone k hk' j n hjk hj
  · rcases h with h | h
    · exact h
    · exact absurd (List.mem_of_getElem? hk') h

end Marks

section Sections

variable {s s' : State} {ms : List Hold} {i : Nat} {m : Hold} {o : JobOp} {a : o.Ans} {e : Env}

/-- No change makes a part interrupted but one by which its task lets it go. -/
lemma apply_state_ne_interrupted {d : DriveJob} {u : DjUpdate} (hu : u.releases = false)
    (hd : d.state ≠ .interrupted) : (d.apply u).state ≠ .interrupted := by
  cases u <;> simp_all [DjUpdate.releases, DriveJob.apply]

/-- **A part in hand** is not found interrupted after a section, unless the section lets it go, or
records another job, or is the recovery's. -/
lemma live_part {st st' : JobStore} {p : JobId × Nat} {d' : DriveJob}
    (hex : o.exec e st = some (a, st')) (hd' : st'.jobs.drive p.1 p.2 = some d')
    (hlive : ∀ d, st.jobs.drive p.1 p.2 = some d → d.state ≠ .interrupted)
    (hkeep : ∀ u, o = .change p.1 p.2 u → u.releases = false)
    (hins : ∀ j, o = .insert j → p.1 ≠ j.id) (hrec : o ≠ .recover) : d'.state ≠ .interrupted := by
  rcases drive_exec_cases hex hd' with ⟨j', ho, hid, -⟩ | ⟨j, d, hj, hd, rfl⟩
  · exact absurd hid.symm (hins j' ho)
  · have hstate : d.state ≠ .interrupted := by
      refine hlive d ?_
      rw [Jobs.drive, hj]
      exact hd
    cases o with
    | change job idx u =>
      simp only [JobOp.onPart]
      by_cases hp : job = p.1 ∧ idx = p.2
      · rw [if_pos hp]
        exact apply_state_ne_interrupted (hkeep u (by rw [hp.1, hp.2])) hstate
      · rw [if_neg hp]
        exact hstate
    | cancel id =>
      simp only [JobOp.onPart, DriveJob.cancelled]
      by_cases hid : id = p.1
      · rw [if_pos hid]
        by_cases hs : d.state = .queued ∨ d.state = .interrupted
        · simp [hs, DriveJob.apply]
        · rw [if_neg hs]
          exact hstate
      · rw [if_neg hid]
        exact hstate
    | resume id who =>
      simp only [JobOp.onPart, DriveJob.requeued, if_neg hstate, ite_self]
      exact hstate
    | recover => exact absurd rfl hrec
    | _ => exact hstate

lemma released_parts_sublist (m : Hold) : m.released.parts.Sublist m.parts := by
  cases m <;> simp [Hold.released, Hold.parts]

/-- But for the recovery, a new job and a resume, a section takes no part up. -/
lemma next_parts_sublist (hrec : o ≠ .recover) (hins : ∀ j, o ≠ .insert j)
    (hres : ∀ id who, o ≠ .resume id who) :
    (m.next (.job o) a).parts.Sublist m.parts := by
  cases o with
  | recover => exact absurd rfl hrec
  | insert j => exact absurd rfl (hins j)
  | resume id who => exact absurd rfl (hres id who)
  | change job idx u =>
    simp only [Hold.next]
    split
    · exact released_parts_sublist m
    · exact List.Sublist.refl _
  | head job idx =>
    cases a with
    | none => exact released_parts_sublist m
    | some x => exact List.Sublist.refl _
  | poll job idx =>
    simp only [Hold.next, Hold.polled]
    split
    · split
      · exact List.Sublist.refl _
      · exact released_parts_sublist m
    · exact released_parts_sublist m
  | _ => exact List.Sublist.refl _

/-- A task that lets its part go has none in hand then. -/
lemma parts_next_of_releases {job : JobId} {idx : Nat} {u : DjUpdate} {x : Option DriveJob}
    (hmay : m.may (.job (.change job idx u))) (hu : u.releases = true) :
    (job, idx) ∈ m.parts ∧ (m.next (.job (.change job idx u)) x).parts = [] := by
  have hnext : m.next (.job (.change job idx u)) x = m.released := if_pos hu
  rw [hnext]
  cases u <;> simp only [DjUpdate.releases, Bool.false_eq_true] at hu <;>
    simp only [Hold.may] at hmay
  · subst hmay
    simp [Hold.parts, Hold.released]
  · subst hmay
    simp [Hold.parts, Hold.released]
  · rcases hmay with rfl | rfl <;> simp [Hold.parts, Hold.released]
  · subst hmay
    simp [Hold.parts, Hold.released]
  · subst hmay
    simp [Hold.parts, Hold.released]

/-- Everything but the hands is as before. -/
lemma InHand.of_hands (hJ : InHand s ms) (hm : ms[i]? = some m)
    (hmay : m.may (.job o)) (hsync : s'.sync = s.sync)
    (hexcl : Exclusive Hold.parts (ms.set i (m.next (.job o) a)))
    (hlive : ∀ n ∈ ms.set i (m.next (.job o) a), ∀ p ∈ n.parts, ∀ d,
      s'.store.jobs.drive p.1 p.2 = some d → d.state ≠ .interrupted) :
    InHand s' (ms.set i (m.next (.job o) a)) := by
  refine ⟨hexcl, hJ.alone_set hm eq_recovering_of_next fun h => ?_, fun h => ?_, hlive⟩
  · subst h
    exact next_idle hmay
  · rw [hsync]
    refine hJ.closed ?_
    rcases List.mem_or_eq_of_mem_set h with h | h
    · exact h
    · rw [← eq_recovering_of_next h.symm]
      exact List.mem_of_getElem? hm

/-- A section that takes no part up. -/
lemma InHand.section (hJ : InHand s ms) (hm : ms[i]? = some m) (hmay : m.may (.job o))
    (hsync : s'.sync = s.sync) (hex : o.exec e s.store = some (a, s'.store)) (hrec : o ≠ .recover)
    (hins : ∀ j, o ≠ .insert j) (hsub : (m.next (.job o) a).parts.Sublist m.parts) :
    InHand s' (ms.set i (m.next (.job o) a)) := by
  have hmem : m ∈ ms := List.mem_of_getElem? hm
  have hins' : ∀ (p : JobId × Nat) (j : Job), o = .insert j → p.1 ≠ j.id :=
    fun p j ho => absurd ho (hins j)
  refine hJ.of_hands hm hmay hsync ?_ ?_
  · exact hJ.exclusive.set hm ((hJ.exclusive.nodup m hmem).sublist hsub)
      fun t ht => .inl (hsub.subset ht)
  · refine forall_mem_set (fun p hp d hd => ?_) fun j n hj hn p hp d hd => ?_
    · refine live_part hex hd (hJ.live m hmem p (hsub.subset hp)) (fun u ho => ?_) (hins' p) hrec
      by_contra hu
      rw [Bool.not_eq_false] at hu
      subst ho
      rw [(parts_next_of_releases hmay hu).2] at hp
      cases hp
    · refine live_part hex hd (hJ.live n (List.mem_of_getElem? hn) p hp) (fun u ho => ?_)
        (hins' p) hrec
      by_contra hu
      rw [Bool.not_eq_false] at hu
      subst ho
      have hpm : p ∈ m.parts := (parts_next_of_releases (x := a) hmay hu).1
      exact hj (hJ.exclusive.eq_of_mem hn hm hp hpm)

/-- The recovery takes up the parts to watch. -/
lemma InHand.recover (hJ : InHand s ms) (hm : ms[i]? = some .recovering)
    (hsync : s'.sync = s.sync) {a : JobOp.recover.Ans}
    (hex : JobOp.recover.exec e s.store = some (a, s'.store)) :
    InHand s' (ms.set i (Hold.next .recovering (.job .recover) a)) := by
  obtain ⟨rfl, hstore⟩ := Prod.mk.inj (Option.some.inj hex)
  have hfree : ∀ n ∈ ms, ∀ t : JobId × Nat, t ∉ n.parts := by
    intro n hn t ht
    obtain ⟨j, hj⟩ := List.getElem?_of_mem hn
    by_cases hji : j = i
    · subst hji
      rw [hm] at hj
      cases hj
      cases ht
    · rw [hJ.alone i hm j n hji hj] at ht
      cases ht
  refine hJ.of_hands hm rfl hsync ?_ ?_
  · exact hJ.exclusive.set hm (nodup_reattached _) fun t _ => .inr fun n hn => hfree n hn t
  · refine forall_mem_set (fun p hp d' hd' => ?_) fun j n _ hn p hp => ?_
    · obtain ⟨e, he, rfl⟩ := List.mem_map.mp hp
      obtain ⟨j, d, hj, hd, hact⟩ := mem_reattached he
      have hget : s'.store.jobs.get e.1 = some j.recovered := by
        rw [← hstore]
        exact (Jobs.get_updateAll _ _ Job.recovered_id _).trans (by rw [hj]; rfl)
      have hsame : d.recovered j = d := by rw [DriveJob.recovered, hact]
      rw [Jobs.drive, hget, Option.bind_some] at hd'
      simp only [Job.recovered, List.getElem?_map, hd, Option.map_some, hsame,
        Option.some.injEq] at hd'
      subst hd'
      rw [((recoverAction_eq_reattach_iff _ _).mp hact).1]
      simp
    · exact absurd hp (hfree n (List.mem_of_getElem? hn) p)

/-- A new job's parts are taken up. -/
lemma InHand.insert (hJ : InHand s ms) (hm : ms[i]? = some m) {j : Job} {a : Unit}
    (hmay : m.may (.job (.insert j))) (hsync : s'.sync = s.sync)
    (hex : (JobOp.insert j).exec e s.store = some (a, s'.store))
    (hfresh : ∀ m ∈ ms, ∀ p ∈ m.parts, p.1 ≠ j.id) :
    InHand s' (ms.set i (m.next (.job (.insert j)) a)) := by
  have hget : s'.store.jobs.get j.id = some j := by
    obtain ⟨-, hstore⟩ := Prod.mk.inj (Option.some.inj hex)
    rw [← hstore]
    exact (Jobs.get_insert _ _ _).trans (if_pos rfl)
  refine hJ.of_hands hm hmay hsync ?_ ?_
  · refine hJ.exclusive.set hm ?_ fun t ht => .inr fun n hn htn => ?_
    · rw [Hold.next, Hold.parts, runnable_eq]
      exact (nodup_places _ _).map fun a b hab => (Prod.mk.inj hab).2
    · obtain ⟨idx, -, rfl⟩ := List.mem_map.mp ht
      exact hfresh n hn _ htn rfl
  · refine forall_mem_set (fun p hp d' hd' => ?_) fun k n _ hn p hp d' hd' => ?_
    · obtain ⟨idx, hidx, rfl⟩ := List.mem_map.mp hp
      rw [runnable_eq, mem_places] at hidx
      obtain ⟨d, hd, hq⟩ := hidx
      rw [Jobs.drive, hget, Option.bind_some, hd] at hd'
      cases hd'
      rw [of_decide_eq_true hq]
      simp
    · have hmem : n ∈ ms := List.mem_of_getElem? hn
      refine live_part hex hd' (hJ.live n hmem p hp) (by simp) (fun j' hj' => ?_) (by simp)
      cases hj'
      exact hfresh n hmem p hp

/-- The interrupted parts of a job are taken up again. -/
lemma InHand.resume (hJ : InHand s ms) (hm : ms[i]? = some m) {id : JobId}
    {who : Option Requester} {a : Except String (List Nat)}
    (hmay : m.may (.job (.resume id who))) (hsync : s'.sync = s.sync)
    (hex : (JobOp.resume id who).exec e s.store = some (a, s'.store)) :
    InHand s' (ms.set i (m.next (.job (.resume id who)) a)) := by
  cases a with
  | error why =>
    exact hJ.section hm hmay hsync hex (by simp) (by simp) (List.Sublist.refl _)
  | ok idxs =>
    obtain ⟨j, hj, hc, rfl⟩ : ∃ j, s.store.jobs.get id = some j ∧ j.cancel = false ∧
        idxs = j.resumable := by
      simp only [JobOp.exec] at hex
      split at hex
      · cases (Prod.mk.inj (Option.some.inj hex)).1
      · next j hj =>
        split at hex
        · cases (Prod.mk.inj (Option.some.inj hex)).1
        · next hc =>
          obtain ⟨ha, -⟩ := Prod.mk.inj (Option.some.inj hex)
          cases ha
          exact ⟨j, hj, by simpa using hc, rfl⟩
    have hpart : ∀ idx ∈ j.resumable, ∃ d, j.drives[idx]? = some d ∧ d.state = .interrupted := by
      intro idx hidx
      rw [resumable_eq, mem_places] at hidx
      obtain ⟨d, hd, hint⟩ := hidx
      exact ⟨d, hd, of_decide_eq_true hint⟩
    refine hJ.of_hands hm hmay hsync ?_ ?_
    · refine hJ.exclusive.set hm ?_ fun t ht => .inr fun n hn htn => ?_
      · rw [Hold.next, Hold.parts, resumable_eq]
        exact (nodup_places _ _).map fun a b hab => (Prod.mk.inj hab).2
      · obtain ⟨idx, hidx, rfl⟩ := List.mem_map.mp ht
        obtain ⟨d, hd, hint⟩ := hpart idx hidx
        refine hJ.live n hn _ htn d ?_ hint
        rw [Jobs.drive, hj]
        exact hd
    · refine forall_mem_set (fun p hp d' hd' => ?_) fun k n _ hn p hp d' hd' => ?_
      · obtain ⟨idx, hidx, rfl⟩ := List.mem_map.mp hp
        obtain ⟨d, hd, hint⟩ := hpart idx hidx
        have hafter : s'.store.jobs.drive id idx = some d.requeued := by
          rw [drive_exec_of_drive hex hj hd (by simp) (by simp)]
          simp [JobOp.onPart, hc]
        rw [hafter] at hd'
        cases hd'
        simp [DriveJob.requeued, hint]
      · exact live_part hex hd' (hJ.live n (List.mem_of_getElem? hn) p hp) (by simp) (by simp) (by simp)

end Sections

/-! ## The invariant over runs -/

section Keeps

variable {cfg : Settings} {newV5 : String → Uuid}
  {ok : Condition Op Op.Ans State World Req Hold}

/-- A section of the jobs keeps the parts in one hand. -/
lemma InHand.job {s s' : State} {ms : List Hold} {i : Nat} {m : Hold} {o : JobOp} {a : o.Ans}
    {e : Env} (hJ : InHand s ms) (hm : ms[i]? = some m) (hmay : m.may (.job o))
    (hex : (Op.job o).exec newV5 e s = some (a, s'))
    (hok : FreshIds s ms (.turn i (.job o) a)) :
    InHand s' (ms.set i (m.next (.job o) a)) := by
  obtain ⟨hst, hs'⟩ := exec_job hex
  have hsync : s'.sync = s.sync := by rw [hs']
  by_cases hrec : o = .recover
  · subst hrec
    obtain rfl : m = .recovering := hmay
    exact hJ.recover hm hsync hst
  by_cases hins : ∃ j, o = .insert j
  · obtain ⟨j, rfl⟩ := hins
    exact hJ.insert hm hmay hsync hst hok
  by_cases hres : ∃ id who, o = .resume id who
  · obtain ⟨id, who, rfl⟩ := hres
    exact hJ.resume hm hmay hsync hst
  · have hins' : ∀ j, o ≠ .insert j := fun j ho => hins ⟨j, ho⟩
    refine hJ.section hm hmay hsync hst hrec hins' (next_parts_sublist hrec hins' ?_)
    exact fun id who ho => hres ⟨id, who, ho⟩

/-- A task that hands its first part to one that it starts. -/
lemma InHand.hand {s : State} {ms : List Hold} {i : Nat} {m child : Hold} {p : JobId × Nat}
    (hJ : InHand s ms) (hm : ms[i]? = some m) (hparts : m.parts = p :: m.handed.parts)
    (hne : m ≠ .idle ∧ m ≠ .recovering) (hhand : m.handed ≠ .recovering)
    (hchild : child.parts = [p]) (hrec : child ≠ .recovering) :
    InHand s (ms.set i m.handed ++ [child]) := by
  have hno : .recovering ∉ ms := hJ.recovering_notMem hm hne.1 hne.2
  have hno' : .recovering ∉ ms.set i m.handed := by
    intro h
    rcases List.mem_or_eq_of_mem_set h with h | h
    · exact hno h
    · exact hhand h.symm
  have hmem : ∀ n ∈ ms.set i m.handed ++ [child], n ≠ .recovering := by
    intro n hn hrecn
    rcases List.mem_append.mp hn with hn | hn
    · exact hno' (hrecn ▸ hn)
    · exact hrec ((List.mem_singleton.mp hn).symm.trans hrecn)
  refine ⟨hJ.exclusive.hand hm hparts hchild, fun k hk => ?_, fun h => ?_, fun n hn t ht => ?_⟩
  · exact absurd rfl (hmem _ (List.mem_of_getElem? hk))
  · exact absurd rfl (hmem _ h)
  · have hlive := hJ.live m (List.mem_of_getElem? hm)
    rcases List.mem_append.mp hn with hn | hn
    · rcases List.mem_or_eq_of_mem_set hn with hn | rfl
      · exact hJ.live n hn t ht
      · exact hlive t (hparts ▸ List.mem_cons_of_mem p ht)
    · rw [List.mem_singleton.mp hn, hchild, List.mem_singleton] at ht
      subst ht
      exact hlive t (hparts ▸ List.mem_cons_self)

/-- A task that has nothing to do with jobs is added. -/
lemma InHand.concat {s : State} {ms : List Hold} {child : Hold} (hJ : InHand s ms)
    (hparts : child.parts = []) (hrec : child ≠ .recovering)
    (h : child = .idle ∨ .recovering ∉ ms) : InHand s (ms ++ [child]) := by
  refine ⟨hJ.exclusive.concat (by simp [hparts]) (by simp [hparts]), hJ.alone_concat hrec h,
    fun hmem => ?_, fun n hn t ht => ?_⟩
  · rcases List.mem_append.mp hmem with hmem | hmem
    · exact hJ.closed hmem
    · exact absurd (List.mem_singleton.mp hmem).symm hrec
  · rcases List.mem_append.mp hn with hn | hn
    · exact hJ.live n hn t ht
    · rw [List.mem_singleton.mp hn, hparts] at ht
      cases ht

/-- What does not touch the jobs nor the start of the API leaves the parts as they are. -/
lemma InHand.of_same {s s' : State} {ms : List Hold} (hJ : InHand s ms)
    (hstore : s'.store = s.store) (hserving : .recovering ∈ ms → s'.sync.serving = s.sync.serving) :
    InHand s' ms := by
  refine ⟨hJ.exclusive, hJ.alone, fun h => ?_, ?_⟩
  · rw [hserving h]
    exact hJ.closed h
  · rw [hstore]
    exact hJ.live

/-- A task is started. -/
lemma InHand.spawn {s : State} {ms : List Hold} {i : Nat} {m : Hold} {r : Req} (hJ : InHand s ms)
    (hm : ms[i]? = some m) (hmay : m.may (.spawn r)) :
    InHand s (ms.set i (m.next (.spawn r) ()) ++ [Hold.of r]) := by
  have hjobless : m.next (.spawn r) () = m → r.jobless = true →
      InHand s (ms.set i (m.next (.spawn r) ()) ++ [Hold.of r]) := by
    intro hnext hr
    have hidle : Hold.of r = .idle := by cases r <;> first | rfl | cases hr
    rw [hnext, set_of_getElem? hm, hidle]
    exact hJ.concat rfl nofun (.inl rfl)
  cases r with
  | watch job idx id step =>
    obtain ⟨l, rfl⟩ := hmay
    exact hJ.hand hm rfl ⟨nofun, nofun⟩ nofun rfl nofun
  | runDrive job idx =>
    obtain ⟨l, rfl⟩ := hmay
    exact hJ.hand hm rfl ⟨nofun, nofun⟩ nofun rfl nofun
  | _ => exact hjobless rfl hmay

/-- Only the end of the recovery starts the API. -/
lemma serving_eq_of_ne_serve {s s' : State} {o : Op} {a : o.Ans} {e : Env}
    (ho : o ≠ .sync .serve) (hex : o.exec newV5 e s = some (a, s')) :
    s'.sync.serving = s.sync.serving := by
  cases o with
  | sync o =>
    obtain ⟨⟨a', st⟩, hst, hout⟩ := Option.map_eq_some_iff.mp hex
    cases hout
    cases o with
    | serve => exact absurd rfl ho
    | acquireLane key permits =>
      obtain ⟨l, -, hl⟩ := Option.map_eq_some_iff.mp hst
      cases hl
      rfl
    | acquireDomain key permits =>
      obtain ⟨l, -, hl⟩ := Option.map_eq_some_iff.mp hst
      cases hl
      rfl
    | awaitRun h =>
      simp only [SyncOp.exec] at hst
      split at hst <;> cases hst
      rfl
    | lockFirmware =>
      simp only [SyncOp.exec] at hst
      split at hst <;> cases hst
      rfl
    | _ =>
      cases hst
      rfl
  | query o =>
    cases hex
    rfl
  | engine o =>
    cases hex
    rfl
  | spawn r =>
    cases hex
    rfl
  | _ =>
    obtain ⟨out, -, hout⟩ := Option.map_eq_some_iff.mp hex
    cases hout
    rfl

/-- **The parts stay in one hand** in every step of the daemon, as long as no new job takes the id
of one whose tasks are still under way. -/
theorem keeps_inHand (hok : ∀ s ms e, ok s ms e → FreshIds s ms e) :
    Keeps (daemon cfg newV5) holdProtocol ok InHand where
  entry := holds_entry
  start s ms r hJ hr _ := by
    obtain ⟨hserving, hext⟩ := Bool.and_eq_true_iff.mp hr
    have hof : Hold.of r = .client [] := by cases r <;> first | rfl | cases hext
    refine ⟨.inr rfl, ?_⟩
    change InHand s (ms ++ [Hold.of r])
    rw [hof]
    refine hJ.concat rfl nofun (.inr fun hmem => ?_)
    rw [hJ.closed hmem] at hserving
    cases hserving
  turn s ms i m o e a s' hJ hm hmay hex hstep := by
    have hex : o.exec newV5 e s = some (a, s') := hex
    refine ⟨trivial, fun r hr => .inr rfl, ?_⟩
    have hframe : holdProtocol.next m o a = m → o.spawned = none → (∀ oj, o ≠ .job oj) →
        (.recovering ∈ ms → s'.sync.serving = s.sync.serving) →
        InHand s' (ms.set i (holdProtocol.next m o a) ++
          ((daemon cfg newV5).spawned o).toList.map (holdProtocol.child m)) := by
      intro hnext hspawn hjob hserving
      have hsame : InHand s' ms := hJ.of_same (store_eq_of_ne_job hjob hex) hserving
      simpa [daemon, hspawn, hnext, set_of_getElem? hm] using hsame
    cases o with
    | job o =>
      have hnext : holdProtocol.next m (.job o) a = m.next (.job o) a := rfl
      simpa [daemon, Op.spawned, hnext] using hJ.job hm hmay hex (hok _ _ _ hstep)
    | spawn r =>
      cases hex
      exact hJ.spawn hm hmay
    | sync o =>
      refine hframe rfl rfl (by simp) fun hrec => ?_
      refine serving_eq_of_ne_serve (fun ho => ?_) hex
      cases ho
      obtain ⟨l, rfl⟩ := hmay
      exact hJ.recovering_notMem hm nofun nofun hrec
    | record o => exact hframe rfl rfl (by simp) fun _ => serving_eq_of_ne_serve (by simp) hex
    | device o => exact hframe rfl rfl (by simp) fun _ => serving_eq_of_ne_serve (by simp) hex
    | query o => exact hframe rfl rfl (by simp) fun _ => serving_eq_of_ne_serve (by simp) hex
    | engine o => exact hframe rfl rfl (by simp) fun _ => serving_eq_of_ne_serve (by simp) hex
  world s ms w s' hJ hw _ := by
    refine hJ.of_same ?_ fun _ => ?_
    · cases w <;> cases hw <;> rfl
    · cases w <;> cases hw <;> rfl
  crash s ms hJ _ := by
    refine ⟨fun r hr => ?_, ?_⟩
    · obtain rfl : r = .recover := List.mem_singleton.mp hr
      exact .inr rfl
    · refine ⟨?_, fun i hi j n hji hj => ?_, fun _ => rfl, fun n hn t ht => ?_⟩
      · exact exclusive_nil.concat (by simp [holdProtocol, holdTracer, Hold.of, Hold.parts]) (by simp)
      · have hlen : ([Req.recover].map holdProtocol.fresh).length = 1 := rfl
        have hi0 : i < 1 := (List.getElem?_eq_some_iff.mp hi).1
        have hj0 : j < 1 := (List.getElem?_eq_some_iff.mp hj).1
        omega
      · obtain rfl : n = .recovering := List.mem_singleton.mp hn
        cases ht

end Keeps

end StormDrive
