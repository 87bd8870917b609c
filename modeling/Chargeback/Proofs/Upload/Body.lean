import Chargeback.Proofs.Json.Records
import Chargeback.Upload.Endpoint

/-!
# Posted batches are read back

What is posted for a batch is read back as the same batch, under the same organisation and
cluster and with its payloads in their order, whatever characters stand in their texts: the
JSON text that a payload carries is escaped once more, and comes back as it was. All that is
not sent is the time at which a payload was captured. So two posts have the same body only if
they agree in everything that is sent.

## Main definitions

* `Payload.sent`, `Envelope.sent`: what is sent of a payload and of a batch.
* `Envelope.read?`: the batch that a text stands for.
* `Post.body_loses_nothing`: the body of a post is read back.
-/

namespace Chargeback

/-! ## Words and lists -/

theorem Action.ofJson?_toJson (a : Action) : ofJson? a.toJson = some a := by
  cases a <;> decide

theorem ResourceKind.ofJson?_toJson (k : ResourceKind) : ofJson? k.toJson = some k := by
  cases k <;> decide

/-- A list is read back, each item as what it is read as. -/
theorem Json.list?_map {α β : Type} {read : Json → Option β} {write : α → Json} {f : α → β}
    (h : ∀ a, read (write a) = some (f a)) (l : List α) :
    list? read (.array (l.map write)) = some (l.map f) := by
  change (l.map write).mapM read = some (l.map f)
  induction l with
  | nil => rfl
  | cons a l ih => simp [h, ih]

/-! ## Payloads -/

namespace Payload

/-- What is sent of a payload: all but the time of its capture. -/
def sent (p : Payload) : Payload := { p with captured := none }

/-- The fields of a written payload. -/
def jsonFields (p : Payload) : List (String × Option Json) :=
  [("key", some (.string p.key)), ("eventType", some p.action.toJson),
    ("namespace", some (.string p.namespaceName)), ("resourceType", some p.kind.toJson),
    ("cloudType", some (.string p.cloudType)), ("data", some (.string p.data))]

theorem nodup_jsonFields (p : Payload) : (p.jsonFields.map Prod.fst).Nodup := by
  simp [jsonFields]

theorem ofJson?_toJson (p : Payload) : ofJson? p.toJson = some p.sent := by
  obtain ⟨r, hfields, hget⟩ := Json.record?_record p.jsonFields p.nodup_jsonFields
  have hrecord : Json.record? fieldNames p.toJson = some r := hfields
  simp only [jsonFields, List.forall_mem_cons] at hget
  obtain ⟨hkey, haction, hnamespace, hkind, hcloud, hdata, -⟩ := hget
  have htext {name s : String} (h : r.get? name = some (.string s)) :
      r.required? name Json.text? = some s :=
    Json.Record.required?_of_get? h rfl
  have hdone : r.required? "eventType" Action.ofJson? = some p.action :=
    Json.Record.required?_of_get? haction p.action.ofJson?_toJson
  have habout : r.required? "resourceType" ResourceKind.ofJson? = some p.kind :=
    Json.Record.required?_of_get? hkind p.kind.ofJson?_toJson
  simp only [ofJson?, hrecord, htext hkey, hdone, htext hnamespace, habout, htext hcloud,
    htext hdata, bind, Option.bind, sent]

theorem legible_toJson (p : Payload) : p.toJson.Legible := by
  have hfields : ∀ f ∈ p.jsonFields, ∀ j ∈ f.2, j.Legible := by
    simp [jsonFields, Action.toJson, ResourceKind.toJson, Json.Legible.string]
  exact Json.legible_record hfields

end Payload

/-! ## Batches -/

namespace Envelope

/-- What is sent of a batch. -/
def sent (e : Envelope) : Envelope := { e with payloads := e.payloads.map Payload.sent }

/-- The fields of a written batch. -/
def jsonFields (e : Envelope) : List (String × Option Json) :=
  [("cspOrgId", some (.string e.orgId)), ("cluster", some (.string e.cluster)),
    ("data", some (.array (e.payloads.map Payload.toJson)))]

theorem nodup_jsonFields (e : Envelope) : (e.jsonFields.map Prod.fst).Nodup := by
  simp [jsonFields]

/-- Read a batch; all three fields have to be given. -/
def ofJson? (j : Json) : Option Envelope := do
  let r ← Json.record? ["cspOrgId", "cluster", "data"] j
  some
    { orgId := ← r.required? "cspOrgId" Json.text?
      cluster := ← r.required? "cluster" Json.text?
      payloads := ← r.required? "data" (Json.list? Payload.ofJson?) }

/-- The batch that a text stands for. -/
def read? (text : String) : Option Envelope := (Json.parse? text).bind ofJson?

theorem ofJson?_toJson (e : Envelope) : ofJson? e.toJson = some e.sent := by
  obtain ⟨r, hfields, hget⟩ := Json.record?_record e.jsonFields e.nodup_jsonFields
  have hrecord : Json.record? ["cspOrgId", "cluster", "data"] e.toJson = some r := hfields
  simp only [jsonFields, List.forall_mem_cons] at hget
  obtain ⟨horg, hcluster, hdata, -⟩ := hget
  have howned : r.required? "cspOrgId" Json.text? = some e.orgId :=
    Json.Record.required?_of_get? horg rfl
  have hnamed : r.required? "cluster" Json.text? = some e.cluster :=
    Json.Record.required?_of_get? hcluster rfl
  have hlisted : r.required? "data" (Json.list? Payload.ofJson?) =
      some (e.payloads.map Payload.sent) :=
    Json.Record.required?_of_get? hdata (Json.list?_map Payload.ofJson?_toJson e.payloads)
  simp only [ofJson?, hrecord, howned, hnamed, hlisted, bind, Option.bind, sent]

theorem legible_toJson (e : Envelope) : e.toJson.Legible := by
  have hdata : (Json.array (e.payloads.map Payload.toJson)).Legible := by
    refine .array fun j hj => ?_
    obtain ⟨p, -, rfl⟩ := List.mem_map.1 hj
    exact p.legible_toJson
  have hfields : ∀ f ∈ e.jsonFields, ∀ j ∈ f.2, j.Legible := by
    simp [jsonFields, Json.Legible.string, hdata]
  exact Json.legible_record hfields

/-- The body of a batch is the text of its value. -/
theorem parse?_body (e : Envelope) : Json.parse? e.body = some e.toJson :=
  Json.parse?_write e.legible_toJson

theorem read?_body (e : Envelope) : read? e.body = some e.sent := by
  rw [read?, parse?_body, Option.bind_some, ofJson?_toJson]

/-- The body depends on what is sent only. -/
theorem body_sent (e : Envelope) : e.sent.body = e.body := by
  have hpayloads : e.sent.payloads.map Payload.toJson = e.payloads.map Payload.toJson := by
    simp only [sent, List.map_map]
    rfl
  rw [body, body, toJson, toJson, hpayloads]
  rfl

theorem body_eq_iff {e e' : Envelope} : e.body = e'.body ↔ e.sent = e'.sent := by
  constructor
  · intro h
    have hread := e.read?_body
    rw [h, read?_body] at hread
    exact (Option.some_inj.1 hread).symm
  · intro h
    rw [← body_sent e, h, body_sent e']

end Envelope

/-! ## Posts -/

/-- **The body of a post loses nothing.** Whatever characters stand in the texts, it is a JSON
object of the organisation, the cluster and the payloads, each of these an object with the
exported fields and no others; it is read back as the batch that was sent; and the bodies of
two posts are the same only if all that is sent is the same. -/
theorem Post.body_loses_nothing :
    (∀ (s : Subscriber) (batch : List Payload),
      (∃ items, Json.parse? (bodyFor s batch) = some (.object
          [("cspOrgId", .string s.orgId), ("cluster", .string s.cluster),
            ("data", .array items)]) ∧
        ∀ i ∈ items, ∃ fields, i = .object fields ∧ fields.map Prod.fst = Payload.fieldNames) ∧
      Envelope.read? (bodyFor s batch) =
        some { orgId := s.orgId, cluster := s.cluster, payloads := batch.map Payload.sent }) ∧
    ∀ (s s' : Subscriber) (batch batch' : List Payload),
      bodyFor s batch = bodyFor s' batch' ↔
        s.orgId = s'.orgId ∧ s.cluster = s'.cluster ∧
          batch.map Payload.sent = batch'.map Payload.sent := by
  refine ⟨fun s batch => ⟨⟨batch.map Payload.toJson, ?_, ?_⟩, ?_⟩, fun s s' batch batch' => ?_⟩
  · exact Envelope.parse?_body { orgId := s.orgId, cluster := s.cluster, payloads := batch }
  · intro i hi
    obtain ⟨p, -, rfl⟩ := List.mem_map.1 hi
    exact ⟨_, rfl, rfl⟩
  · exact Envelope.read?_body { orgId := s.orgId, cluster := s.cluster, payloads := batch }
  · rw [bodyFor, bodyFor, Envelope.body_eq_iff]
    simp [Envelope.sent]

/-- A payload with quotes, backslashes and control characters in it, and its batch. -/
example : Envelope.read? (Envelope.body
    { orgId := "org \\u0041", cluster := "é\u0001", payloads := [
      { key := "shop/🍏", action := .create, namespaceName := "shop", kind := .pod
        cloudType := "aws", data := "\x7b\"a\":\"\\n\"\x7d", captured := some ⟨0, 0⟩ }] }) =
    some { orgId := "org \\u0041", cluster := "é\u0001", payloads := [
      { key := "shop/🍏", action := .create, namespaceName := "shop", kind := .pod
        cloudType := "aws", data := "\x7b\"a\":\"\\n\"\x7d" }] } := by
  decide +kernel

end Chargeback
