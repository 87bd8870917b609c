import Chargeback.Proofs.Inventory.Mirror
import Chargeback.Proofs.Pipeline.Conservation

/-!
# The inventory mirrors all events that were taken up

Any number of events are handled at the same time, each under policies of its own, while the
clock and the store of groups change in whatever way. An event with an object is tracked by
the first request of its handling, and by no other one: before it may turn out that it is to
be ignored, and before the groups can fail. So the inventory mirrors the history of the events
in the order in which they were taken up, at every moment, and it does not depend on how the
events of different keys were mixed.

## Main definitions

* `Reconciler.tracking`: a protocol by which an event is tracked once, and first.
* `Traffic.history`: the events in the order in which they are taken up.
* `Traffic.Follows`: the invariant of all runs.
-/

namespace Chargeback

/-! ## One event -/

/-- The request does not change the inventory. -/
def ReconcilerRequest.KeepsInventory : ReconcilerRequest → Prop
  | .track .. => False
  | _ => True

namespace Reconciler

/-- What may be asked for while an event is handled: first that its object is tracked, and
then only what keeps the inventory. Whether the object has been tracked is noted. -/
def tracking (e : ResourceEvent) : Protocol ReconcilerInterface Bool where
  allows
    | false, r => ∃ object, e.object = some object ∧ r = .track e.action object
    | true, r => r.KeepsInventory
  after _ _ _ := true

variable {c : Reconciler} {e : ResourceEvent} {object : Resource}

/-- From then on, nothing else is tracked. -/
abbrev LeavesInventory (e : ResourceEvent) {α : Type} (p : ReconcilerProgram α) : Prop :=
  p.Obeys (tracking e) (fun tracked _ => tracked = true) true

theorem onGroups_leavesInventory (p : GroupProgram (Except AggregateError Unit)) :
    LeavesInventory e (onGroups p) := by
  have hstep : ∀ (r : AggregatorRequest) (m : Bool), m = true →
      (ask (.group r)).Obeys (tracking e) (fun m' _ => m' = true) m := by
    rintro r m rfl
    exact Program.obeys_ask trivial fun _ => rfl
  have hembed : LeavesInventory e (p.embed fun r => ask (.group r)) :=
    Program.obeys_embed hstep p rfl
  refine hembed.bind ?_
  rintro m (failure | ⟨⟩) hm
  · exact hm
  · exact hm

theorem aggregate_leavesInventory : LeavesInventory e (c.aggregate e object) := by
  unfold aggregate
  split
  next =>
    refine ⟨trivial, fun a => ?_⟩
    cases a with
    | error overflow => rfl
    | ok bytes => exact onGroups_leavesInventory _
  next => exact onGroups_leavesInventory _
  next => rfl

theorem offer_leavesInventory (payload : Payload) (handler : Handler) :
    LeavesInventory e (do
      let () ← ask (.offer payload)
      match ← c.aggregate e object with
      | .ok () => pure (.ok handler)
      | .error failure => pure (.error failure) :
        ReconcilerProgram (Except ReconcileError Handler)) := by
  refine ⟨trivial, fun _ => aggregate_leavesInventory.bind ?_⟩
  rintro m (failure | ⟨⟩) hm
  · exact hm
  · exact hm

/-- An event with an object is tracked once and first, whatever the policies say and whatever
becomes of its handling. Without an object nothing is tracked. -/
theorem handle_tracks (c : Reconciler) (e : ResourceEvent) :
    (c.handle e).Obeys (tracking e) (fun tracked _ => tracked = e.object.isSome) false := by
  cases he : e.object with
  | none =>
    rw [handle_of_no_object he]
    rfl
  | some object =>
    rw [handle, he]
    refine ⟨⟨object, he, rfl⟩, fun _ => ⟨trivial, fun _ => ?_⟩⟩
    cases c.handlerOf e with
    | ignore => rfl
    | exportOnly => exact offer_leavesInventory _ _
    | exportAndUpsert => exact offer_leavesInventory _ _
    | exportAndPurge => exact offer_leavesInventory _ _

end Reconciler

/-- Only what is tracked changes the inventory. -/
theorem Pipeline.answer_inventory {r : ReconcilerRequest} (hr : r.KeepsInventory) (p : Pipeline) :
    (Pipeline.answer r p).2.inventory = p.inventory := by
  cases r with
  | track action object => exact hr.elim
  | countEvent kind action => rfl
  | offer payload =>
    simp only [Pipeline.answer, Pipeline.enqueue, Pipeline.showBuffered]
    split <;> rfl
  | claimedBytes keys => rfl
  | group r => cases r <;> rfl

/-! ## Histories of runs -/

/-- The event has been taken up: a first request has been made for it. -/
def Handling.takenUp (h : Handling) : Bool := !h.asked.isEmpty

/-- The events that have been taken up. -/
def takenUpIn (handlings : List Handling) : List ResourceEvent :=
  (handlings.filter Handling.takenUp).map Handling.event

theorem takenUp_answered (h : Handling) (r : ReconcilerRequest)
    (next : ReconcilerInterface.Answer r → ReconcilerProgram (Except ReconcileError Handler))
    (a : ReconcilerInterface.Answer r) : (h.answered r next a).takenUp = true := by
  simp [Handling.takenUp, Handling.answered]

namespace Traffic

/-- The event that a move takes up, if it does: an event with an object whose handling has
not taken a step before. -/
def takenUp? (w : Traffic) : TrafficMove → Option ResourceEvent
  | .advance i =>
    w.handlings[i]?.bind fun h =>
      if h.takenUp ∨ h.event.object = none then none else some h.event
  | _ => none

/-- The events that moves take up, in their order. -/
def history (w : Traffic) : List TrafficMove → List ResourceEvent
  | [] => []
  | move :: moves => (w.takenUp? move).toList ++ (w.move move).history moves

/-- A history tells of the events that have been taken up, each once; and these include all
events with an object that have been handled, well or not. -/
structure TellsOf (history : List ResourceEvent) (w : Traffic) : Prop where
  perm : history.Perm (takenUpIn w.handlings)
  of_done : ∀ h ∈ w.handlings, ∀ result, h.rest = .done result →
    h.takenUp = h.event.object.isSome

/-- The inventory follows a history of events: it mirrors them, they have been taken up, and
the others will be tracked when they are. -/
structure Follows (w : Traffic) (history : List ResourceEvent) : Prop where
  mirrors : w.pipeline.inventory.Mirrors history
  perm : history.Perm (takenUpIn w.handlings)
  obeys : ∀ h ∈ w.handlings,
    h.rest.Obeys (Reconciler.tracking h.event) (fun tracked _ => tracked = h.event.object.isSome)
      h.takenUp

variable {w w' : Traffic} {past : List ResourceEvent} {h h' : Handling} {i : Nat}
  {handlings : List Handling}

/-! ## Steps -/

theorem takenUpIn_append_begun (c : Reconciler) (e : ResourceEvent) :
    takenUpIn (handlings ++ [{ settings := c, event := e, rest := c.handle e }]) =
      takenUpIn handlings := by
  simp [takenUpIn, Handling.takenUp]

theorem split_at_place (h' : Handling) (hi : handlings[i]? = some h) :
    ∃ before after, handlings = before ++ h :: after ∧
      handlings.set i h' = before ++ h' :: after := by
  obtain ⟨hlt, rfl⟩ := List.getElem?_eq_some_iff.mp hi
  obtain ⟨before, after, hsplit, -, hset⟩ := List.exists_of_set hlt
  exact ⟨before, after, hsplit, hset⟩

/-- Another step of the same event takes up nothing new. -/
theorem takenUpIn_set_of_takenUp (hi : handlings[i]? = some h) (hold : h.takenUp)
    (hnew : h'.takenUp) (hevent : h'.event = h.event) :
    takenUpIn (handlings.set i h') = takenUpIn handlings := by
  obtain ⟨before, after, hsplit, hset⟩ := split_at_place h' hi
  rw [hset, hsplit]
  simp [takenUpIn, hold, hnew, hevent]

/-- The first step of an event takes it up. -/
theorem takenUpIn_set_of_first (hi : handlings[i]? = some h) (hold : h.takenUp = false)
    (hnew : h'.takenUp) (hevent : h'.event = h.event) :
    (takenUpIn handlings ++ [h.event]).Perm (takenUpIn (handlings.set i h')) := by
  obtain ⟨before, after, hsplit, hset⟩ := split_at_place h' hi
  rw [hset, hsplit]
  simp only [takenUpIn, List.filter_append, List.filter_cons, hold, hnew, Bool.false_eq_true,
    if_true, if_false, List.map_append, List.map_cons, hevent]
  exact List.perm_append_singleton _ _ |>.trans List.perm_middle.symm

theorem Follows.obeys_set (H : Follows w past) (h' : Handling)
    (hobeys : h'.rest.Obeys (Reconciler.tracking h'.event)
      (fun tracked _ => tracked = h'.event.object.isSome) h'.takenUp) :
    ∀ k ∈ w.handlings.set i h', k.rest.Obeys (Reconciler.tracking k.event)
      (fun tracked _ => tracked = k.event.object.isSome) k.takenUp := by
  intro k hk
  rcases List.mem_or_eq_of_mem_set hk with hk | rfl
  · exact H.obeys k hk
  · exact hobeys

/-- By the protocol, the first step of a handling tracks its object and takes its event up,
and the later ones keep the inventory. -/
theorem Follows.advance (H : Follows w past) (hi : w.handlings[i]? = some h) :
    Follows (w.advance i h) (past ++ (w.takenUp? (.advance i)).toList) := by
  have hobeys := H.obeys h (List.mem_of_getElem? hi)
  have hnow : w.takenUp? (.advance i) =
      if h.takenUp ∨ h.event.object = none then none else some h.event := by
    rw [takenUp?, hi]
    rfl
  rw [hnow]
  cases hrest : h.rest with
  | done result =>
    rw [hrest] at hobeys
    change h.takenUp = h.event.object.isSome at hobeys
    have hnone : h.takenUp ∨ h.event.object = none := by
      rw [hobeys]
      cases h.event.object with
      | none => exact .inr rfl
      | some object => exact .inl rfl
    rw [if_pos hnone, Traffic.advance, hrest]
    simpa using H
  | call r next =>
    rw [hrest] at hobeys
    obtain ⟨hallowed, hnext⟩ := hobeys
    rw [advance_call hrest]
    cases htaken : h.takenUp with
    | true =>
      rw [htaken] at hallowed
      rw [if_pos (.inl rfl), Option.toList_none, List.append_nil]
      refine ⟨?_, ?_, H.obeys_set _ ?_⟩
      · change (Pipeline.answer r w.pipeline).2.inventory.Mirrors past
        rw [Pipeline.answer_inventory hallowed]
        exact H.mirrors
      · rw [takenUpIn_set_of_takenUp hi htaken (takenUp_answered ..) rfl]
        exact H.perm
      · rw [takenUp_answered]
        exact hnext _
    | false =>
      rw [htaken] at hallowed
      obtain ⟨object, hobject, rfl⟩ := hallowed
      have hfirst : ¬(false = true ∨ h.event.object = none) := by simp [hobject]
      rw [if_neg hfirst, Option.toList_some]
      refine ⟨H.mirrors.track hobject, ?_, H.obeys_set _ ?_⟩
      · exact (H.perm.append_right [h.event]).trans
          (takenUpIn_set_of_first hi htaken (takenUp_answered ..) rfl)
      · rw [takenUp_answered]
        exact hnext _

/-- Other moves take up nothing. -/
theorem Follows.frame (H : Follows w past)
    (hinventory : w'.pipeline.inventory = w.pipeline.inventory)
    (hhandlings : w'.handlings = w.handlings) : Follows w' (past ++ []) := by
  rw [List.append_nil]
  exact ⟨hinventory ▸ H.mirrors, hhandlings ▸ H.perm, hhandlings ▸ H.obeys⟩

theorem Follows.begin (H : Follows w past) (c : Reconciler) (e : ResourceEvent) :
    Follows (w.move (.begin c e)) (past ++ []) := by
  rw [List.append_nil]
  refine ⟨H.mirrors, ?_, ?_⟩
  · change past.Perm (takenUpIn (w.handlings ++ [{ settings := c, event := e, rest := c.handle e }]))
    rw [takenUpIn_append_begun]
    exact H.perm
  · intro h hh
    rcases List.mem_append.mp hh with hh | hh
    · exact H.obeys h hh
    · rw [List.mem_singleton.mp hh]
      exact c.handle_tracks e

theorem answerUpload_inventory (stop : Bool) (reply : Option Nat) (r : UploadRequest)
    (p : Pipeline) : (answerUpload stop reply r p).2.inventory = p.inventory := by
  cases r <;> rfl

theorem Follows.upload (H : Follows w past) (stop : Bool) (reply : Option Nat) :
    Follows (w.upload stop reply) (past ++ []) := by
  cases hstep : w.cycle.step w.batchSize with
  | done outcome =>
    refine H.frame ?_ ?_
    · rw [Traffic.upload, hstep]
    · rw [Traffic.upload, hstep]
  | call r next =>
    rw [upload_call hstep]
    exact H.frame (answerUpload_inventory ..) rfl

/-- Every move that takes an event up adds it to the history. -/
theorem Follows.move (H : Follows w past) (m : TrafficMove) :
    Follows (w.move m) (past ++ (w.takenUp? m).toList) := by
  cases m with
  | begin c e => exact H.begin c e
  | advance i =>
    cases hi : w.handlings[i]? with
    | none =>
      have hmove : w.move (.advance i) = w := by rw [Traffic.move, hi]
      have hnone : w.takenUp? (.advance i) = none := by rw [takenUp?, hi]; rfl
      rw [hmove, hnone]
      exact H.frame rfl rfl
    | some h =>
      have hmove : w.move (.advance i) = w.advance i h := by rw [Traffic.move, hi]
      rw [hmove]
      exact H.advance hi
  | upload stop reply => exact H.upload stop reply
  | disturb now store => exact H.frame rfl rfl

/-! ## Runs -/

/-- By induction on the moves. -/
theorem Follows.run (H : Follows w past) (moves : List TrafficMove) :
    Follows (w.run moves) (past ++ w.history moves) := by
  induction moves generalizing w past with
  | nil => simpa [Traffic.run, history] using H
  | cons m moves ih =>
    rw [history, ← List.append_assoc]
    exact ih (H.move m)

theorem follows_new (settings : PipelineSettings) (now : Instant) (batchSize : Nat) :
    Follows { pipeline := .new settings now, batchSize } [] where
  mirrors := Inventory.mirrors_empty
  perm := .refl _
  obeys _ hh := nomatch hh

theorem Follows.tellsOf (H : Follows w past) : TellsOf past w where
  perm := H.perm
  of_done h hh result hrest := by
    have hobeys := H.obeys h hh
    rw [hrest] at hobeys
    exact hobeys

/-- At every moment, the inventory mirrors the events that have been taken up: for each key it
holds the object of the last one, if this was not a deletion. Nodes are shared and pods are
priced as that tells. Two runs, whatever their policies and stores are, that take up the same
events for each key, in whatever mixture of the keys, come to the same inventory. -/
theorem run_mirrors (settings : PipelineSettings) (now : Instant) (batchSize : Nat)
    (moves : List TrafficMove) :
    let start : Traffic := { pipeline := .new settings now, batchSize }
    let history := start.history moves
    let inventory := (start.run moves).pipeline.inventory
    (TellsOf history (start.run moves) ∧ inventory.Mirrors history) ∧
      ((∀ node, inventory.SharesNode history node) ∧
        ∀ engine key at', inventory.PricesPod history engine key at') ∧
      ∀ settings' now' batchSize' moves',
        let start' : Traffic := { pipeline := .new settings' now', batchSize := batchSize' }
        SameByKey history (start'.history moves') →
          (start'.run moves').pipeline.inventory = inventory := by
  intro start history inventory
  have H : Follows (start.run moves) history := (follows_new settings now batchSize).run moves
  refine ⟨⟨H.tellsOf, H.mirrors⟩, ⟨H.mirrors.sharesNode, H.mirrors.pricesPod⟩, ?_⟩
  intro settings' now' batchSize' moves' start' hsame
  have H' : Follows (start'.run moves') (start'.history moves') :=
    (follows_new settings' now' batchSize').run moves'
  exact (H.mirrors.eq_of_sameByKey H'.mirrors hsame).symm

/-! ## A node and a pod -/

/-- A node is created. -/
def nodeAdded : ResourceEvent :=
  .new .create
    { metadata := { name := some "n1" }
      content := .node none (some { allocatable := some (.ofList [("cpu", "2")]) }) }
    ⟨1700000000, 0⟩

/-- A pod on that node changes. -/
def podChanged : ResourceEvent :=
  .new .update
    { metadata := { name := some "web-0", namespaceName := some "shop" }
      content := .pod (some { nodeName := some "n1" }) none }
    ⟨1700000000, 0⟩

/-- The store fails, and the change of the pod cannot be made in its groups. -/
def changeFails : List TrafficMove :=
  let c : Reconciler := { policies := { updatePolicy := .recompute } }
  [.disturb ⟨1700000000, 0⟩ (ScriptedStore.order {} .get [.fail .other]), .begin c nodeAdded,
    .advance 0, .begin c podChanged] ++ .replicate 6 (.advance 1)

/-- The pod comes first, and its change is ignored. -/
def changeIgnored : List TrafficMove :=
  [.begin {} podChanged, .advance 0, .advance 0, .begin {} nodeAdded, .advance 1]

/-- Once the change of the pod fails, and once it is ignored, but the inventory is the same. -/
theorem rack_mirrored :
    let start : Traffic := { pipeline := .new {} ⟨1700000000, 0⟩, batchSize := 1 }
    let failing := start.run changeFails
    let ignoring := start.run changeIgnored
    (failing.handlings[1]?.bind Handling.result? =
        some (.error (.aggregate (.store (.other "scripted for ns-shop")))) ∧
      ignoring.handlings[0]?.bind Handling.result? = some (.ok .ignore)) ∧
    SameByKey (start.history changeFails) (start.history changeIgnored) ∧
    ignoring.pipeline.inventory = failing.pipeline.inventory ∧
    failing.pipeline.inventory.counts = [1, 1, 0] := by
  intro start failing ignoring
  have hfails : start.history changeFails = [nodeAdded, podChanged] := by decide +kernel
  have hignored : start.history changeIgnored = [podChanged, nodeAdded] := by decide +kernel
  have hsame : SameByKey (start.history changeFails) (start.history changeIgnored) := by
    rw [hfails, hignored]
    refine sameByKey_swap ?_ [] []
    rintro kind key ⟨hnode, hpod⟩
    rw [isAbout_of_object rfl] at hnode hpod
    exact absurd (hnode.1.trans hpod.1.symm) (by decide)
  obtain ⟨-, -, hindependent⟩ := run_mirrors {} ⟨1700000000, 0⟩ 1 changeFails
  have hequal := hindependent {} ⟨1700000000, 0⟩ 1 changeIgnored hsame
  refine ⟨by decide +kernel, hsame, ?_, by decide +kernel⟩
  rw [← hequal]

end Traffic

end Chargeback
