import Chargeback.Proofs.Program.Protocol
import Chargeback.Reconciler.Handle

/-!
# What the handling of an event offers

The handling of an event offers one payload if the event carries an object and is not
to be ignored, and none otherwise. It does so before it turns to the groups, so that
their failures do not matter. Without an object it asks for nothing at all.

## Main definitions

* `Reconciler.Ignores`: the events that are to be ignored.
* `Reconciler.Describes`: what the payload of an event says.
* `Reconciler.payload?`: the payload that an event is to offer.
* `Reconciler.offering`: a protocol that records what is asked for.
* `Reconciler.handle_obeys`: the handling of an event offers that payload, once.
-/

namespace Chargeback

/-- The payload that a request offers. -/
def ReconcilerRequest.offered? : ReconcilerRequest → Option Payload
  | .offer p => some p
  | _ => none

/-- The payloads that requests offer, in their order. -/
def offersIn (asked : List ReconcilerRequest) : List Payload :=
  asked.filterMap ReconcilerRequest.offered?

theorem offersIn_append (asked : List ReconcilerRequest) (r : ReconcilerRequest) :
    offersIn (asked ++ [r]) = offersIn asked ++ r.offered?.toList := by
  rw [offersIn, List.filterMap_append, ← offersIn]
  cases r <;> rfl

theorem offersIn_append_of_none {asked : List ReconcilerRequest} {r : ReconcilerRequest}
    (h : r.offered? = none) : offersIn (asked ++ [r]) = offersIn asked := by
  rw [offersIn_append, h]
  exact List.append_nil _

namespace Reconciler

/-- The event is to be ignored: it is an update, and updates do not count. -/
def Ignores (c : Reconciler) (e : ResourceEvent) : Prop :=
  e.action = .update ∧ c.policies.updatePolicy = .ignore

instance (c : Reconciler) (e : ResourceEvent) : Decidable (c.Ignores e) :=
  inferInstanceAs (Decidable (_ ∧ _))

/-- The payload describes the event and its object: it has the key, the action, the kind and the
time of the event, the namespace of the object, the cloud type of the settings, and the text that
the object is written as. -/
structure Describes (c : Reconciler) (e : ResourceEvent) (object : Resource) (p : Payload) :
    Prop where
  key_eq : p.key = e.key
  action_eq : p.action = e.action
  kind_eq : p.kind = e.kind
  namespaceName_eq : p.namespaceName = object.metadata.namespaceName.getD ""
  cloudType_eq : p.cloudType = c.cloudType
  data_eq : c.serializer.write object = .ok p.data
  captured_eq : p.captured = some e.observed

/-- The payload that an event is to offer: one if it carries an object and is not to be
ignored. -/
def payload? (c : Reconciler) (e : ResourceEvent) : Option Payload :=
  match e.object with
  | none => none
  | some object =>
    if c.Ignores e then none
    else
      some
        { key := e.key
          action := e.action
          namespaceName := object.metadata.namespaceName.getD ""
          kind := e.kind
          cloudType := c.cloudType
          data := c.serializer.text object
          captured := some e.observed }

/-- What may be asked for while an event is handled: nothing if it carries no object;
and no payload but its own, and that one only once. What is asked for is recorded. -/
def offering (c : Reconciler) (e : ResourceEvent) :
    Protocol ReconcilerInterface (List ReconcilerRequest) where
  allows asked r := e.object.isSome ∧ offersIn (asked ++ [r]) <+: (c.payload? e).toList
  after asked r _ := asked ++ [r]

variable {c : Reconciler} {e : ResourceEvent} {object : Resource} {asked : List ReconcilerRequest}

theorem handlerOf_eq_ignore_iff : c.handlerOf e = .ignore ↔ c.Ignores e := by
  have hcreate : Handler.ofCreate e.kind ≠ .ignore := by
    rw [Handler.ofCreate]
    split <;> exact nofun
  rw [handlerOf, Ignores]
  cases e.action with
  | create => exact iff_of_false hcreate nofun
  | update =>
    cases c.policies.updatePolicy with
    | ignore => exact iff_of_true rfl ⟨rfl, rfl⟩
    | recompute => exact iff_of_false hcreate nofun
  | delete =>
    refine iff_of_false ?_ nofun
    cases c.policies.deletePolicy with
    | retain => exact nofun
    | purge =>
      rw [Handler.select]
      split <;> exact nofun

/-- The payload that is built from an event is the one that it is to offer. -/
theorem payload?_of_object (he : e.object = some object) :
    c.payload? e = if c.handlerOf e = .ignore then none else some (c.payload e object) := by
  rw [payload?, he]
  simp only [handlerOf_eq_ignore_iff]
  rfl

theorem payload?_eq_some_iff {p : Payload} :
    c.payload? e = some p ↔
      ∃ object, e.object = some object ∧ ¬c.Ignores e ∧ c.Describes e object p := by
  rw [payload?]
  cases e.object with
  | none => simp
  | some object =>
    simp only [Option.some.injEq, exists_eq_left', Option.ite_none_left_eq_some]
    refine and_congr_right fun _ => ?_
    constructor
    · rintro rfl
      exact ⟨rfl, rfl, rfl, rfl, rfl, c.serializer.write_eq object, rfl⟩
    · intro h
      obtain ⟨key, action, namespaceName, kind, cloudType, data, captured⟩ := p
      obtain ⟨rfl, rfl, rfl, rfl, rfl, hdata, rfl⟩ := h
      rw [c.serializer.write_eq object, Except.ok.injEq] at hdata
      rw [hdata]

/-- The event's payload has been offered. -/
def HasOffered (c : Reconciler) (e : ResourceEvent) (asked : List ReconcilerRequest) : Prop :=
  offersIn asked = (c.payload? e).toList

theorem HasOffered.append (h : HasOffered c e asked) {r : ReconcilerRequest}
    (hr : r.offered? = none) : HasOffered c e (asked ++ [r]) :=
  (offersIn_append_of_none hr).trans h

/-- Once the payload has been offered, all other requests are allowed. -/
theorem HasOffered.allows (h : HasOffered c e asked) (he : e.object = some object)
    {r : ReconcilerRequest} (hr : r.offered? = none) : (c.offering e).allows asked r := by
  have hsame : offersIn (asked ++ [r]) = (c.payload? e).toList := h.append hr
  exact ⟨by rw [he]; rfl, hsame ▸ List.prefix_rfl⟩

theorem onGroups_obeys (he : e.object = some object) (h : HasOffered c e asked)
    (p : GroupProgram (Except AggregateError Unit)) :
    (onGroups p).Obeys (c.offering e) (fun m _ => HasOffered c e m) asked := by
  have hstep : ∀ (r : AggregatorRequest) (m : List ReconcilerRequest), HasOffered c e m →
      (ask (.group r)).Obeys (c.offering e) (fun m' _ => HasOffered c e m') m := by
    intro r m hm
    exact Program.obeys_ask (hm.allows he rfl) fun _ => hm.append rfl
  refine (Program.obeys_embed hstep p h).bind ?_
  rintro m (failure | ⟨⟩) hm
  · exact hm
  · exact hm

/-- What an event changes in the groups offers nothing. -/
theorem aggregate_obeys (he : e.object = some object) (h : HasOffered c e asked) :
    (c.aggregate e object).Obeys (c.offering e) (fun m _ => HasOffered c e m) asked := by
  unfold aggregate
  split
  next =>
    refine ⟨h.allows he rfl, fun a => ?_⟩
    have hm : HasOffered c e (asked ++ [.claimedBytes object.claimKeys]) := h.append rfl
    cases a with
    | error overflow => exact hm
    | ok bytes => exact onGroups_obeys he hm _
  next => exact onGroups_obeys he h _
  next => exact h

theorem handle_of_no_object (he : e.object = none) :
    c.handle e = .done (.error (.missingObject e.key)) := by
  rw [handle, he]
  rfl

/-- From the offer on, the payload is offered, whatever becomes of the groups. -/
theorem offer_obeys (he : e.object = some object)
    (hpayload : c.payload? e = some (c.payload e object)) (hasked : offersIn asked = [])
    (handler : Handler) :
    (do
      let () ← ask (.offer (c.payload e object))
      match ← c.aggregate e object with
      | .ok () => pure (.ok handler)
      | .error failure => pure (.error failure) :
        ReconcilerProgram (Except ReconcileError Handler)).Obeys
      (c.offering e) (fun m _ => HasOffered c e m) asked := by
  have hoffered : HasOffered c e (asked ++ [.offer (c.payload e object)]) := by
    rw [HasOffered, offersIn, List.filterMap_append, ← offersIn, hasked, hpayload]
    rfl
  refine ⟨⟨by rw [he]; rfl, hoffered ▸ List.prefix_rfl⟩, fun _ => ?_⟩
  refine (aggregate_obeys he hoffered).bind ?_
  rintro m (failure | ⟨⟩) hm
  · exact hm
  · exact hm

/-- The handling of an event offers its payload once, or none if there is none to offer,
whatever becomes of the groups. -/
theorem handle_obeys (c : Reconciler) (e : ResourceEvent) :
    (c.handle e).Obeys (c.offering e) (fun m _ => HasOffered c e m) [] := by
  cases he : e.object with
  | none =>
    rw [handle_of_no_object he]
    change offersIn [] = (c.payload? e).toList
    rw [payload?, he]
    rfl
  | some object =>
    have hobject : e.object.isSome := by rw [he]; rfl
    have hnothing : ([] : List Payload) <+: (c.payload? e).toList := List.nil_prefix
    have hpayload := payload?_of_object (c := c) he
    rw [handle, he]
    refine ⟨⟨hobject, hnothing⟩, fun _ => ⟨⟨hobject, hnothing⟩, fun _ => ?_⟩⟩
    cases hhandler : c.handlerOf e with
    | ignore =>
      rw [hhandler] at hpayload
      change offersIn _ = (c.payload? e).toList
      rw [hpayload]
      rfl
    | exportOnly =>
      rw [hhandler] at hpayload
      exact offer_obeys he hpayload rfl _
    | exportAndUpsert =>
      rw [hhandler] at hpayload
      exact offer_obeys he hpayload rfl _
    | exportAndPurge =>
      rw [hhandler] at hpayload
      exact offer_obeys he hpayload rfl _

end Reconciler

end Chargeback
