import Chargeback.Proofs.Pipeline.Failures
import Chargeback.Proofs.Pipeline.Undisturbed
import Chargeback.Proofs.Reconciler.Offers
import Chargeback.Proofs.Reconciler.Tasks

/-!
# Events that are delivered again

An event may be delivered more than once: because nobody knows whether it was handled, or
because its handling has failed. A handling that fails may have changed some groups and not
the others. But what it has changed is on the way to where the event leads, from wherever the
groups are on this way: so a later handling ends where one undisturbed handling would have
ended. Once they have arrived there, handling the event again writes nothing.

All this is for one month of the clock, since a later month forgets windows that an earlier
one has kept.

## Main definitions

* `Pipeline.HandledTask`: what the handling of an event does to the store.
* `Pipeline.Meanwhile`: what may happen between two deliveries.
* `Pipeline.Delivered`: an event has been delivered some number of times.
* `Pipeline.redelivery_heals_and_rests`: what comes of it.
-/

namespace Chargeback

namespace Pipeline

variable {p p' m p₀ : Pipeline} {retry : RetryPolicy} {t : GroupTask} {e : ResourceEvent}
  {object : Resource} {c : Reconciler}

/-! ## Tasks -/

theorem task_toward (h : Orderly p) (t : GroupTask) :
    Toward (t.goal p.now) p (p.onGroups (t.program retry)).2 := by
  cases t with
  | nothing => exact (Looked.refl h).toward _
  | join labelGroups pod usage observed => exact join_toward h
  | leave pod ended => exact leave_toward h

theorem task_became (h : Orderly p) (hok : (p.onGroups (t.program retry)).1 = .ok ()) :
    Became (t.goal p.now) p (p.onGroups (t.program retry)).2 := by
  cases t with
  | nothing => exact ⟨h, rfl, fun _ => rfl⟩
  | join labelGroups pod usage observed => exact join_run h hok
  | leave pod ended => exact leave_run h hok

theorem succeeds_task (retry : RetryPolicy) (t : GroupTask) : Succeeds (t.program retry) := by
  cases t with
  | nothing => exact succeeds_done ()
  | join labelGroups pod usage observed => exact succeeds_join labelGroups
  | leave pod ended => exact succeeds_leave

/-- Records that a task has made what they are to be are left alone. -/
theorem task_looked (h : Orderly p) {s : String → Option GroupSpec}
    (hspec : ∀ name, p.spec? name = t.goal p.now name (s name)) :
    Looked p (p.onGroups (t.program retry)).2 := by
  cases t with
  | nothing => exact .refl h
  | join labelGroups pod usage observed =>
    refine join_looked h ⟨fun name => ?_, fun name => ?_⟩
    · rw [hspec]
      exact Membership.repeatable_joined.entered_moved
    · rw [hspec]
      exact Membership.repeatable_joined.map_moved
  | leave pod ended =>
    refine leave_looked h ⟨fun name => ?_, fun name => ?_⟩
    · rw [hspec]
      exact Membership.repeatable_left.entered_moved
    · rw [hspec]
      exact Membership.repeatable_left.map_moved

/-- What an event changes in the groups: it carries out its task, or it has none and changes
nothing. -/
inductive CarriedOut (c : Reconciler) (e : ResourceEvent) (m : Pipeline)
    (run : Except ReconcileError Unit × Pipeline) : Prop where
  | ran {t : GroupTask} (htask : c.task m.inventory e = .ok t)
    (hend : run.2 = (m.onGroups (t.program c.retry)).2)
    (hresult : run.1 = .ok () ↔ (m.onGroups (t.program c.retry)).1 = .ok ())
  | failed {failure : ReconcileError} (htask : c.task m.inventory e = .error failure)
    (hrun : run = (.error failure, m))

/-- The program of a task, run for the handling of an event. -/
theorem carriedOut_onGroups {m : Pipeline} (htask : c.task m.inventory e = .ok t) :
    CarriedOut c e m ((Reconciler.onGroups (t.program c.retry)).run answer m) := by
  have hembed : ((t.program c.retry).embed fun r => Reconciler.ask (.group r)).run answer m =
      (t.program c.retry).run answerGroup m := Program.run_embed _ _ (t.program c.retry) m
  simp only [Reconciler.onGroups, Program.monad_bind_eq, Program.run_bind, hembed]
  refine .ran htask ?_ ?_
  · rw [onGroups]
    cases ((t.program c.retry).run answerGroup m).1 <;> rfl
  · rw [onGroups]
    cases ((t.program c.retry).run answerGroup m).1 with
    | ok a => exact ⟨fun _ => rfl, fun _ => rfl⟩
    | error failure =>
      constructor
      · intro h
        cases h
      · intro h
        cases h

theorem carriedOut_joinGroups (m : Pipeline) (he : e.object = some object)
    (hkind : object.kind = .pod) (hhandler : c.handlerOf e = .exportAndUpsert) :
    CarriedOut c e m ((c.joinGroups e object).run answer m) := by
  have hclaimed : (Reconciler.ask (.claimedBytes object.claimKeys)).run answer m =
      (m.inventory.claimedBytes object.claimKeys, m) := rfl
  simp only [Reconciler.joinGroups, Program.monad_bind_eq, Program.run_bind, hclaimed]
  cases hbytes : m.inventory.claimedBytes object.claimKeys with
  | error overflow => exact .failed (Reconciler.task_of_overflow he hkind hhandler hbytes) rfl
  | ok bytes => exact carriedOut_onGroups (Reconciler.task_of_upsert he hkind hhandler hbytes)

theorem carriedOut_nothing (m : Pipeline) (he : e.object = some object)
    (h : object.kind ≠ .pod ∨ Reconciler.LeavesGroups (c.handlerOf e)) :
    CarriedOut c e m ((c.aggregate e object).run answer m) := by
  have haggregate : c.aggregate e object = .done (.ok ()) :=
    h.elim Reconciler.aggregate_of_not_pod Reconciler.aggregate_of_leavesGroups
  rw [haggregate]
  exact .ran (Reconciler.task_of_neither he h) rfl ⟨fun _ => rfl, fun _ => rfl⟩

theorem carriedOut_aggregate (m : Pipeline) (he : e.object = some object) :
    CarriedOut c e m ((c.aggregate e object).run answer m) := by
  by_cases hkind : object.kind = .pod
  · by_cases hupsert : c.handlerOf e = .exportAndUpsert
    · rw [Reconciler.aggregate, hkind, hupsert]
      exact carriedOut_joinGroups m he hkind hupsert
    · by_cases hpurge : c.handlerOf e = .exportAndPurge
      · rw [Reconciler.aggregate, hkind, hpurge]
        exact carriedOut_onGroups (Reconciler.task_of_purge he hkind hpurge)
      · exact carriedOut_nothing m he (.inr ⟨hupsert, hpurge⟩)
  · exact carriedOut_nothing m he (.inl hkind)

/-! ## Handling an event -/

/-- The task of an event in a pipeline that has entered it into its inventory. -/
def task (p : Pipeline) (e : ResourceEvent) : Except ReconcileError GroupTask :=
  p.settings.reconciler.task (p.inventory.entered e) e

/-- What the handling of an event does to the store: it carries out the event's task, or it
fails and does nothing. -/
inductive HandledTask (p : Pipeline) (e : ResourceEvent) : Prop where
  | ran {t : GroupTask} {m : Pipeline} (htask : p.task e = .ok t) (hstore : m.store = p.store)
    (hnow : m.now = p.now)
    (hend : (p.handle e).2 = (m.onGroups (t.program p.settings.reconciler.retry)).2)
    (hresult : (p.handle e).1.isOk ↔
      (m.onGroups (t.program p.settings.reconciler.retry)).1 = .ok ())
  | failed {failure : ReconcileError} (htask : p.task e = .error failure)
    (hstore : (p.handle e).2.store = p.store) (hnow : (p.handle e).2.now = p.now)
    (hresult : ¬(p.handle e).1.isOk)

theorem handledTask (p : Pipeline) (e : ResourceEvent) : HandledTask p e := by
  cases he : e.object with
  | none =>
    have hhandle : p.handle e = (.error (.missingObject e.key), p) := by
      rw [handle, Reconciler.handle_of_no_object he]
      rfl
    have htask : p.task e = .error (.missingObject e.key) := by rw [task, Reconciler.task, he]
    refine .failed htask ?_ ?_ ?_
    · rw [hhandle]
    · rw [hhandle]
    · rw [hhandle]
      exact Bool.false_ne_true
  | some object =>
    obtain ⟨m, hstore, hnow, hinventory, hend, hresult⟩ := handle_run p he
    have hentered : m.inventory = p.inventory.entered e := by
      rw [hinventory, Inventory.entered, he]
      rfl
    have htask : p.task e = p.settings.reconciler.task m.inventory e := by rw [task, hentered]
    cases carriedOut_aggregate (c := p.settings.reconciler) m he with
    | ran hran hend' hresult' =>
      exact .ran (htask.trans hran) hstore hnow (hend.trans hend') (hresult.trans hresult')
    | failed hfailed hrun =>
      rw [hrun] at hend hresult
      refine .failed (htask.trans hfailed) (hend ▸ hstore) (hend ▸ hnow) fun hok => ?_
      cases hresult.mp hok

theorem Toward.of_store_eq {goal : String → Option GroupSpec → Option GroupSpec}
    (T : Toward goal m p') (hstore : m.store = p.store) (hnow : m.now = p.now) :
    Toward goal p p' := by
  refine ⟨T.orderly, T.now_eq.trans hnow, fun name => ?_⟩
  rw [T.goal_eq, spec?, spec?, group?, group?, hstore]

theorem Looked.of_store_eq (L : Looked m p') (hstore : m.store = p.store) (hnow : m.now = p.now) :
    Looked p p' :=
  ⟨L.orderly, L.now_eq.trans hnow, hstore ▸ L.records, hstore ▸ L.calls, hstore ▸ L.calm⟩

theorem orderly_of_store_eq (h : Orderly p) (hstore : m.store = p.store) : Orderly m :=
  ⟨hstore ▸ h.sound, hstore ▸ h.honest⟩

/-- However the handling of an event ends, the records stay on the way. -/
theorem handle_toward (h : Orderly p) (htask : p.task e = .ok t) :
    Toward (t.goal p.now) p (p.handle e).2 := by
  cases handledTask p e with
  | ran hran hstore hnow hend hresult =>
    rw [htask] at hran
    cases hran
    rw [hend, ← hnow]
    exact (task_toward (orderly_of_store_eq h hstore) t).of_store_eq hstore hnow
  | failed hfailed hstore hnow hresult =>
    rw [htask] at hfailed
    cases hfailed

/-- When an event has been handled well, the records are where they are to be. -/
theorem handle_became (h : Orderly p) (hok : (p.handle e).1.isOk) :
    ∃ t, p.task e = .ok t ∧ Became (t.goal p.now) p (p.handle e).2 := by
  cases handledTask p e with
  | @ran t m htask hstore hnow hend hresult =>
    refine ⟨t, htask, ?_⟩
    rw [hend, ← hnow]
    exact (task_became (orderly_of_store_eq h hstore) (hresult.mp hok)).of_store_eq hstore hnow
  | failed htask hstore hnow hresult => exact absurd hok hresult

theorem exists_task_of_isOk (hok : (p.handle e).1.isOk) : ∃ t, p.task e = .ok t := by
  cases handledTask p e with
  | ran htask hstore hnow hend hresult => exact ⟨_, htask⟩
  | failed htask hstore hnow hresult => exact absurd hok hresult

/-- The handling of an event that has a task only fails if something disturbs the store. -/
theorem isOk_handle_of_calm (h : Orderly p) (hcalm : p.store.Calm) (htask : p.task e = .ok t) :
    (p.handle e).1.isOk := by
  cases handledTask p e with
  | @ran t' m htask' hstore hnow hend hresult =>
    have hok := succeeds_task p.settings.reconciler.retry t' m
      (orderly_of_store_eq h hstore) (hstore ▸ hcalm)
    refine hresult.mpr ?_
    generalize (m.onGroups (t'.program p.settings.reconciler.retry)).1 = result at hok
    cases result with
    | ok a => rfl
    | error failure => cases hok
  | failed hfailed hstore hnow hresult =>
    rw [htask] at hfailed
    cases hfailed

/-- Records that are where they are to be are left alone. -/
theorem handle_looked (h : Orderly p) (htask : p.task e = .ok t) {s : String → Option GroupSpec}
    (hspec : ∀ name, p.spec? name = t.goal p.now name (s name)) : Looked p (p.handle e).2 := by
  cases handledTask p e with
  | @ran t' m hran hstore hnow hend hresult =>
    rw [htask] at hran
    cases hran
    have hm : ∀ name, m.spec? name = t.goal m.now name (s name) := by
      intro name
      rw [hnow, ← hspec, spec?, spec?, group?, group?, hstore]
    rw [hend]
    exact (task_looked (orderly_of_store_eq h hstore) hm).of_store_eq hstore hnow
  | failed hfailed hstore hnow hresult =>
    rw [htask] at hfailed
    cases hfailed

/-- An event is entered into the inventory, whatever comes of it. -/
theorem handle_inventory (p : Pipeline) (e : ResourceEvent) :
    (p.handle e).2.inventory = p.inventory.entered e := by
  rw [Inventory.entered]
  cases he : e.object with
  | none =>
    rw [handle, Reconciler.handle_of_no_object he]
    rfl
  | some object =>
    obtain ⟨m, -, -, hinventory, hend, -⟩ := handle_run p he
    rw [hend]
    cases carriedOut_aggregate (c := p.settings.reconciler) m he with
    | ran htask hend' hresult =>
      rw [hend', onGroups_inventory]
      exact hinventory
    | failed htask hrun =>
      rw [hrun]
      exact hinventory

/-- The buffer after payloads have been offered to it. -/
def offerAll (b : Ring Payload) (payloads : List Payload) : Ring Payload :=
  payloads.foldl (fun b payload => (b.put payload).2) b

/-- Only offers change the buffer. -/
theorem answer_buffer (r : ReconcilerRequest) (p : Pipeline) :
    (answer r p).2.buffer = offerAll p.buffer r.offered?.toList := by
  cases r with
  | track action object => rfl
  | countEvent kind action => rfl
  | claimedBytes keys => rfl
  | offer payload =>
    simp only [answer, enqueue, showBuffered, ReconcilerRequest.offered?, Option.toList, offerAll,
      List.foldl]
    split <;> rfl
  | group r => cases r <;> rfl

/-- The payload of an event is offered once, whatever comes of it, and no other one is. -/
theorem handle_buffer (p : Pipeline) (e : ResourceEvent) :
    (p.handle e).2.buffer = offerAll p.buffer (p.settings.reconciler.payload? e).toList := by
  have hstep : ∀ (asked : List ReconcilerRequest) (r : ReconcilerRequest) (q : Pipeline),
      (p.settings.reconciler.offering e).allows asked r →
      q.buffer = offerAll p.buffer (offersIn asked) →
      (answer r q).2.buffer = offerAll p.buffer (offersIn (asked ++ [r])) := by
    intro asked r q _ hq
    rw [answer_buffer, hq, offersIn_append]
    exact (List.foldl_append ..).symm
  obtain ⟨asked, hpost, hbuffer⟩ := (p.settings.reconciler.handle_obeys e).run hstep (s := p) rfl
  rw [← hpost]
  exact hbuffer

/-! ## Deliveries -/

/-- What may happen between two deliveries of an event: others may order failures of the store,
use the buffer, or set the clock within its month. The groups and the inventory stay. -/
structure Meanwhile (p p' : Pipeline) : Prop extends Between p p' where
  inventory : p'.inventory = p.inventory
  month : Month.start p'.now = Month.start p.now

/-- The pipelines after an event has been delivered some number of times, whatever came of it. -/
inductive Delivered (e : ResourceEvent) (p₀ : Pipeline) : Pipeline → Prop where
  | start : Delivered e p₀ p₀
  | meanwhile {p p' : Pipeline} (h : Delivered e p₀ p) (hm : Meanwhile p p') : Delivered e p₀ p'
  | handle {p : Pipeline} (h : Delivered e p₀ p) : Delivered e p₀ (p.handle e).2

/-- An event that has been delivered still has the task that it had at first. -/
theorem Delivered.task_eq (h : Delivered e p₀ p) : p.task e = p₀.task e := by
  have hkept : p.settings = p₀.settings ∧ p.inventory.entered e = p₀.inventory.entered e := by
    induction h with
    | start => exact ⟨rfl, rfl⟩
    | meanwhile _ hm ih => exact ⟨hm.settings.trans ih.1, hm.inventory ▸ ih.2⟩
    | handle _ ih =>
      refine ⟨(handle_settings _ e).trans ih.1, ?_⟩
      rw [handle_inventory, Inventory.entered_entered, ih.2]
  rw [task, task, hkept.1, hkept.2]

/-- The records are still on the way to where a task leads, in the same month. -/
structure Underway (t : GroupTask) (p₀ p : Pipeline) : Prop where
  orderly : Orderly p
  month : Month.start p.now = Month.start p₀.now
  goal_eq : ∀ name, t.goal p₀.now name (p.spec? name) = t.goal p₀.now name (p₀.spec? name)

theorem Underway.meanwhile (U : Underway t p₀ p) (h : Meanwhile p p') : Underway t p₀ p' where
  orderly := h.toBetween.orderly U.orderly
  month := h.month.trans U.month
  goal_eq name := by rw [h.toBetween.spec?_eq, U.goal_eq]

theorem Underway.handle (U : Underway t p₀ p) (ht : p.task e = .ok t) :
    Underway t p₀ (p.handle e).2 := by
  have T := handle_toward U.orderly ht
  have hgoal := t.goal_congr U.month
  refine ⟨T.orderly, T.now_eq ▸ U.month, fun name => ?_⟩
  rw [← U.goal_eq, ← hgoal, T.goal_eq]

/-- By induction on the deliveries. -/
theorem Delivered.underway (h : Delivered e p₀ p) (hstart : Orderly p₀) (ht : p₀.task e = .ok t) :
    Underway t p₀ p := by
  induction h with
  | start => exact ⟨hstart, rfl, fun _ => rfl⟩
  | meanwhile _ hm ih => exact ih.meanwhile hm
  | handle h ih => exact ih.handle (h.task_eq.trans ht)

/-- Where the records are after a handling that went well. -/
theorem Underway.arrived (U : Underway t p₀ p) (ht : p.task e = .ok t) (hok : (p.handle e).1.isOk)
    (name : String) : (p.handle e).2.spec? name = t.goal p₀.now name (p₀.spec? name) := by
  obtain ⟨t', ht', B⟩ := handle_became U.orderly hok
  rw [ht] at ht'
  cases ht'
  rw [B.spec?_eq, t.goal_congr U.month, U.goal_eq]

/-- The pipeline whose store lets no call fail. -/
def undisturbed (p : Pipeline) : Pipeline :=
  { p with store := { p.store with
      script := .empty
      memory := { p.store.memory with pendingFailures := 0, pendingConflicts := 0 } } }

theorem calm_undisturbed (p : Pipeline) : p.undisturbed.store.Calm where
  script _ _ h := nomatch h
  memory := ⟨rfl, rfl⟩

theorem meanwhile_undisturbed (p : Pipeline) : Meanwhile p p.undisturbed where
  settings := rfl
  records := ⟨rfl, rfl, rfl⟩
  honest := (calm_undisturbed p).honest
  inventory := rfl
  month := rfl

theorem Orderly.handle (h : Orderly p) (e : ResourceEvent) : Orderly (p.handle e).2 := by
  refine Program.run_keeps (fun r q hq => ?_) _ h
  cases r with
  | track action object => exact orderly_of_store_eq hq rfl
  | countEvent kind action => exact orderly_of_store_eq hq rfl
  | claimedBytes keys => exact hq
  | offer payload => exact orderly_of_store_eq hq (enqueue_store q payload)
  | group r => exact hq.answerGroup r

theorem Meanwhile.refl (h : Orderly p) : Meanwhile p p :=
  ⟨⟨rfl, .refl _, h.honest⟩, rfl, rfl⟩

/-- An event that is handled well, no matter how often and at which points its handling has
failed before, leaves every record as one undisturbed handling at first would have left it.
Handling it again then neither writes nor tries to write, whatever comes of it: all records
with their versions stay, and so does the inventory; and its payload is offered once more, if
it has one. -/
theorem redelivery_heals_and_rests (hdelivered : Delivered e p₀ p)
    (hstore : p₀.store.memory.Reachable) (hscript : p₀.store.Honest) (hok : (p.handle e).1.isOk) :
    ((p₀.undisturbed.handle e).1.isOk ∧
        ∀ name, (p.handle e).2.spec? name = (p₀.undisturbed.handle e).2.spec? name) ∧
      ∀ q, Meanwhile (p.handle e).2 q →
        q.store.memory.SameRecords (q.handle e).2.store.memory ∧
        (∀ call : StoreCall, call.writes →
          (q.handle e).2.store.calls.get? call.name = q.store.calls.get? call.name) ∧
        (q.handle e).2.inventory = q.inventory ∧
        (q.handle e).2.buffer = offerAll q.buffer (q.settings.reconciler.payload? e).toList := by
  have hstart : Orderly p₀ := ⟨hstore.sound, hscript⟩
  obtain ⟨t, ht⟩ := exists_task_of_isOk hok
  have ht₀ : p₀.task e = .ok t := hdelivered.task_eq.symm.trans ht
  have U := hdelivered.underway hstart ht₀
  refine ⟨?_, fun q hq => ?_⟩
  · have D : Delivered e p₀ p₀.undisturbed := .meanwhile .start (meanwhile_undisturbed p₀)
    have U' := D.underway hstart ht₀
    have ht' := D.task_eq.trans ht₀
    have hok' := isOk_handle_of_calm U'.orderly (calm_undisturbed p₀) ht'
    exact ⟨hok', fun name => (U.arrived ht hok name).trans (U'.arrived ht' hok' name).symm⟩
  · have D : Delivered e p₀ q := hdelivered.handle.meanwhile hq
    have U' := (U.handle ht).meanwhile hq
    have hspec : ∀ name, q.spec? name = t.goal q.now name (p₀.spec? name) := by
      intro name
      rw [hq.toBetween.spec?_eq, U.arrived ht hok, t.goal_congr U'.month]
    have L := handle_looked U'.orderly (D.task_eq.trans ht₀) hspec
    refine ⟨L.records, L.calls, ?_, handle_buffer q e⟩
    rw [handle_inventory, hq.inventory, handle_inventory, Inventory.entered_entered]

/-! ## A pod of the shop -/

/-- The list of groups is not to be had, when the pod of the shop is created. -/
def shopFailing : Pipeline :=
  { shopStart with store := shopStart.store.order .list [.fail .other] }

/-- The first delivery has changed the group of the namespace and failed then; the second one has
changed the group of the tier as well; and the third one has changed nothing. -/
theorem shop_redelivered :
    let first := shopFailing.handle shopCreated
    let second := first.2.handle shopCreated
    (Delivered shopCreated shopFailing first.2 ∧ shopFailing.store.memory.Reachable ∧
      shopFailing.store.Honest ∧ second.1.isOk) ∧
    (¬first.1.isOk ∧ (first.2.members "ns-shop").contains "web-0" ∧
      ¬(first.2.members "tier-web").contains "shop:web-0" ∧
      (second.2.members "tier-web").contains "shop:web-0") ∧
    second.2.spec? "tier-web" = (shopFailing.undisturbed.handle shopCreated).2.spec? "tier-web" ∧
    second.2.store.memory.SameRecords (second.2.handle shopCreated).2.store.memory := by
  intro first second
  have hdelivered : Delivered shopCreated shopFailing first.2 := .handle .start
  have hstore : shopFailing.store.memory.Reachable := .answer _ (.answer _ (.empty []))
  have hscript : shopFailing.store.Honest := by
    intro name entries hentries e he
    rw [shopFailing, ScriptedStore.order, KeyMap.get?_insert] at hentries
    split at hentries
    next =>
      cases hentries
      exact .inr ⟨.other, List.mem_singleton.mp he⟩
    next => cases hentries
  have hok : second.1.isOk := by decide +kernel
  obtain ⟨⟨-, hhealed⟩, hrests⟩ := redelivery_heals_and_rests hdelivered hstore hscript hok
  have horderly : Orderly second.2 := (Orderly.handle ⟨hstore.sound, hscript⟩ _).handle _
  refine ⟨⟨hdelivered, hstore, hscript, hok⟩, by decide +kernel, hhealed "tier-web", ?_⟩
  exact (hrests second.2 (.refl horderly)).1

end Pipeline

end Chargeback
