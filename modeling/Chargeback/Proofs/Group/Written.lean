import Chargeback.Group.Wire
import Chargeback.Proofs.Json.Records
import Chargeback.Proofs.Time.RoundTrip

/-!
# Group records survive storage

A record is the same after it has been written and read: with any characters in its names, any
amounts, any labels, members and windows, whether these are open or ended. What is left out of
the text when it is empty, zero or missing comes back as such.

## Main definitions

* `GroupSpec.Plain`: the times of the record lie in the years 0 to 9999, outside leap seconds.
* `GroupSpec.OmitsDefaults`: what a written record leaves out.
* `GroupSpec.survives_storage`: the record is read back from its text.
-/

namespace Chargeback

/-! ## Metrics -/

namespace Metric

/-- The fields of a written metric. -/
def jsonFields (m : Metric) : List (String × Option Json) :=
  [("cpuRequest", some (.amount m.cpuRequest)), ("cpuLimit", some (.amount m.cpuLimit)),
    ("memoryRequest", some (.amount m.memoryRequest)),
    ("memoryLimit", some (.amount m.memoryLimit))]

theorem nodup_jsonFields (m : Metric) : (m.jsonFields.map Prod.fst).Nodup := by
  simp [jsonFields]

theorem ofJson?_toJson (m : Metric) : ofJson? m.toJson = some m := by
  obtain ⟨r, hfields, hget⟩ := Json.record?_record m.jsonFields m.nodup_jsonFields
  have hrecord : Json.record? ["cpuRequest", "cpuLimit", "memoryRequest", "memoryLimit"] m.toJson =
      some r := hfields
  simp only [jsonFields, List.forall_mem_cons] at hget
  obtain ⟨hcpuRequest, hcpuLimit, hmemoryRequest, hmemoryLimit, -⟩ := hget
  have hamount {name : String} {n : UInt64} (h : r.get? name = some (.amount n)) :
      r.required? name Json.amount? = some n :=
    Json.Record.required?_of_get? h (Json.amount?_amount n)
  simp only [ofJson?, hrecord, hamount hcpuRequest, hamount hcpuLimit, hamount hmemoryRequest,
    hamount hmemoryLimit, bind, Option.bind]

theorem legible_toJson (m : Metric) : m.toJson.Legible := by
  have hfields : ∀ f ∈ m.jsonFields, ∀ j ∈ f.2, j.Legible := by
    simp [jsonFields, Json.legible_amount]
  exact Json.legible_record hfields

end Metric

/-! ## Windows -/

theorem Instant.ofJson?_toJson {t : Instant} (h : t.Plain) : ofJson? t.toJson = some t := by
  rw [ofJson?, toJson, Json.text?, Option.bind_some, read?_write h]

namespace Activity

/-- The times of the window lie in the years 0 to 9999, outside leap seconds. -/
def Plain (a : Activity) : Prop := a.start.Plain ∧ ∀ t ∈ a.finish, t.Plain

instance (a : Activity) : Decidable a.Plain := by unfold Plain; infer_instance

/-- The fields of a written window. -/
def jsonFields (a : Activity) : List (String × Option Json) :=
  [("startTime", some a.start.toJson), ("endTime", a.finish.map Instant.toJson),
    ("metric", some a.metric.toJson),
    ("storageBytes", if a.storageBytes = 0 then none else some (.amount a.storageBytes))]

theorem nodup_jsonFields (a : Activity) : (a.jsonFields.map Prod.fst).Nodup := by
  simp [jsonFields]

theorem ofJson?_toJson {a : Activity} (h : a.Plain) : ofJson? a.toJson = some a := by
  obtain ⟨r, hfields, hget⟩ := Json.record?_record a.jsonFields a.nodup_jsonFields
  have hrecord : Json.record? ["startTime", "endTime", "metric", "storageBytes"] a.toJson =
      some r := hfields
  simp only [jsonFields, List.forall_mem_cons] at hget
  obtain ⟨hstart, hfinish, hmetric, hstorage, -⟩ := hget
  have hopened : r.required? "startTime" Instant.ofJson? = some a.start :=
    Json.Record.required?_of_get? hstart (Instant.ofJson?_toJson h.1)
  have hclosed : r.optional? "endTime" Instant.ofJson? = some a.finish :=
    Json.Record.optional?_of_get? hfinish (fun t heq => by cases heq)
      fun t ht => Instant.ofJson?_toJson (h.2 t ht)
  have hused : r.required? "metric" Metric.ofJson? = some a.metric :=
    Json.Record.required?_of_get? hmetric a.metric.ofJson?_toJson
  have hclaimed : r.withDefault? "storageBytes" 0 Json.amount? = some a.storageBytes := by
    refine Json.Record.withDefault?_of_get? (fun j hj => ?_) fun hnone => ?_
    · rw [hstorage] at hj
      split at hj
      · cases hj
      · cases hj
        exact Json.amount?_amount _
    · rw [hstorage] at hnone
      split at hnone
      next hzero => exact hzero
      next => cases hnone
  simp only [ofJson?, hrecord, hopened, hclosed, hused, hclaimed, bind, Option.bind]

theorem legible_toJson (a : Activity) : a.toJson.Legible := by
  have hfields : ∀ f ∈ a.jsonFields, ∀ j ∈ f.2, j.Legible := by
    simp only [jsonFields, List.forall_mem_cons]
    refine ⟨fun j hj => ?_, fun j hj => ?_, fun j hj => ?_, fun j hj => ?_, by simp⟩
    · cases hj
      exact .string _
    · obtain ⟨t, -, rfl⟩ := Option.map_eq_some_iff.1 hj
      exact .string _
    · cases hj
      exact a.metric.legible_toJson
    · split at hj
      · cases hj
      · cases hj
        exact Json.legible_amount _
  exact Json.legible_record hfields

end Activity

/-! ## Records -/

namespace GroupType

theorem ofJson?_name (t : GroupType) : ofJson? (.string t.name) = some t := by
  cases t <;> decide

end GroupType

namespace GroupSpec

/-- The times of all windows lie in the years 0 to 9999, outside leap seconds. -/
def Plain (g : GroupSpec) : Prop := ∀ a ∈ g.windows.values, a.Plain

instance (g : GroupSpec) : Decidable g.Plain := by unfold Plain; infer_instance

/-- The fields of a written record. -/
def jsonFields (g : GroupSpec) : List (String × Option Json) :=
  [("name", some (.string g.name)), ("type", some (.string g.type.name)),
    ("labels", mapUnlessEmpty Json.string g.labels), ("metrics", some g.total.toJson),
    ("pods", some (Json.ofMap Metric.toJson g.members)),
    ("podsDetails", mapUnlessEmpty Activity.toJson g.windows)]

theorem nodup_jsonFields (g : GroupSpec) : (g.jsonFields.map Prod.fst).Nodup := by
  simp [jsonFields]

section Maps

variable {α : Type} {write : α → Json} {read : Json → Option α} {m : KeyMap α}

theorem mapUnlessEmpty_eq_none_iff : mapUnlessEmpty write m = none ↔ m = .empty := by
  rw [mapUnlessEmpty, ← KeyMap.isEmpty_iff]
  split <;> simp [*]

theorem eq_ofMap_of_mapUnlessEmpty {j : Json} (h : mapUnlessEmpty write m = some j) :
    j = Json.ofMap write m := by
  unfold mapUnlessEmpty at h
  split at h
  · cases h
  · exact (Option.some.inj h).symm

/-- A map is read back although it is left out when it is empty. -/
theorem withDefault?_map {r : Json.Record} {name : String}
    (h : r.get? name = mapUnlessEmpty write m)
    (hread : ∀ v ∈ m.values, read (write v) = some v) :
    r.withDefault? name .empty (Json.map? read) = some m := by
  refine Json.Record.withDefault?_of_get? (fun j hj => ?_) fun hnone => ?_
  · rw [h] at hj
    rw [eq_ofMap_of_mapUnlessEmpty hj]
    exact Json.map?_ofMap hread
  · rw [h] at hnone
    exact mapUnlessEmpty_eq_none_iff.1 hnone

theorem legible_mapUnlessEmpty (h : ∀ v, (write v).Legible) :
    ∀ j ∈ mapUnlessEmpty write m, j.Legible := by
  intro j hj
  rw [eq_ofMap_of_mapUnlessEmpty hj]
  exact Json.legible_ofMap fun v _ => h v

end Maps

/-- A record with plain times is read back from what is written for it. -/
theorem ofJson?_toJson {g : GroupSpec} (h : g.Plain) : ofJson? g.toJson = some g := by
  obtain ⟨r, hfields, hget⟩ := Json.record?_record g.jsonFields g.nodup_jsonFields
  have hrecord : Json.record? ["name", "type", "labels", "metrics", "pods", "podsDetails"]
      g.toJson = some r := hfields
  simp only [jsonFields, List.forall_mem_cons] at hget
  obtain ⟨hname, htype, hlabels, htotal, hmembers, hwindows, -⟩ := hget
  have hgiven {α : Type} {name : String} {default v : α} {j : Json} {read : Json → Option α}
      (hj : r.get? name = some j) (hread : read j = some v) :
      r.withDefault? name default read = some v := by
    rw [Json.Record.withDefault?, hj]
    exact hread
  have hnamed : r.required? "name" Json.text? = some g.name :=
    Json.Record.required?_of_get? hname rfl
  have htyped : r.withDefault? "type" .byNamespace GroupType.ofJson? = some g.type :=
    hgiven htype g.type.ofJson?_name
  have hlabelled : r.withDefault? "labels" .empty (Json.map? Json.text?) = some g.labels :=
    withDefault?_map hlabels fun _ _ => rfl
  have hadded : r.withDefault? "metrics" .zero Metric.ofJson? = some g.total :=
    hgiven htotal g.total.ofJson?_toJson
  have hmapped : r.withDefault? "pods" .empty (Json.map? Metric.ofJson?) = some g.members :=
    hgiven hmembers (Json.map?_ofMap fun m _ => m.ofJson?_toJson)
  have hkept : r.withDefault? "podsDetails" .empty (Json.map? Activity.ofJson?) =
      some g.windows :=
    withDefault?_map hwindows fun a ha => Activity.ofJson?_toJson (h a ha)
  simp only [ofJson?, hrecord, hnamed, htyped, hlabelled, hadded, hmapped, hkept, bind, Option.bind]

theorem legible_toJson (g : GroupSpec) : g.toJson.Legible := by
  have hfields : ∀ f ∈ g.jsonFields, ∀ j ∈ f.2, j.Legible := by
    simp only [jsonFields, List.forall_mem_cons]
    refine ⟨fun j hj => ?_, fun j hj => ?_, legible_mapUnlessEmpty .string, fun j hj => ?_,
      fun j hj => ?_, legible_mapUnlessEmpty Activity.legible_toJson, by simp⟩
    · cases hj
      exact .string _
    · cases hj
      exact .string _
    · cases hj
      exact g.total.legible_toJson
    · cases hj
      exact Json.legible_ofMap fun m _ => m.legible_toJson
  exact Json.legible_record hfields

/-- The text of a record is the text of a JSON value. -/
theorem parse?_write (g : GroupSpec) : Json.parse? g.write = some g.toJson :=
  Json.parse?_write g.legible_toJson

theorem read?_write {g : GroupSpec} (h : g.Plain) : read? g.write = some g := by
  rw [read?, parse?_write, Option.bind_some, ofJson?_toJson h]

/-- What a written record leaves out: empty labels, an empty list of windows, and of a window
the end that is missing and the storage that is zero. -/
structure OmitsDefaults (g : GroupSpec) (j : Json) : Prop where
  labels : j.field? "labels" = none ↔ g.labels = .empty
  windows : j.field? "podsDetails" = none ↔ g.windows = .empty
  window : ∀ key a, g.windows.get? key = some a →
    ∃ w, (j.field? "podsDetails").bind (Json.field? key) = some w ∧
      (w.field? "endTime" = none ↔ a.finish = none) ∧
      (w.field? "storageBytes" = none ↔ a.storageBytes = 0)

theorem omitsDefaults_toJson (g : GroupSpec) : g.OmitsDefaults g.toJson := by
  have hfield {name : String} {j : Option Json} (hf : (name, j) ∈ g.jsonFields) :
      g.toJson.field? name = j :=
    Json.field?_record g.nodup_jsonFields hf
  have hwindow {name : String} {j : Option Json} {a : Activity} (hf : (name, j) ∈ a.jsonFields) :
      a.toJson.field? name = j :=
    Json.field?_record a.nodup_jsonFields hf
  have hlabels : g.toJson.field? "labels" = mapUnlessEmpty Json.string g.labels :=
    hfield (by simp [jsonFields])
  have hwindows : g.toJson.field? "podsDetails" = mapUnlessEmpty Activity.toJson g.windows :=
    hfield (by simp [jsonFields])
  refine ⟨?_, ?_, fun key a ha => ⟨a.toJson, ?_, ?_, ?_⟩⟩
  · rw [hlabels]
    exact mapUnlessEmpty_eq_none_iff
  · rw [hwindows]
    exact mapUnlessEmpty_eq_none_iff
  · have hne : g.windows ≠ .empty := fun heq => by rw [heq] at ha; cases ha
    obtain ⟨j, hj⟩ : ∃ j, mapUnlessEmpty Activity.toJson g.windows = some j :=
      Option.ne_none_iff_exists'.1 fun hnone => hne (mapUnlessEmpty_eq_none_iff.1 hnone)
    rw [hwindows, hj, eq_ofMap_of_mapUnlessEmpty hj, Option.bind_some, Json.field?_ofMap, ha]
    rfl
  · have hfinish : a.toJson.field? "endTime" = a.finish.map Instant.toJson :=
      hwindow (by simp [Activity.jsonFields])
    rw [hfinish, Option.map_eq_none_iff]
  · have hstorage : a.toJson.field? "storageBytes" =
        if a.storageBytes = 0 then none else some (.amount a.storageBytes) :=
      hwindow (by simp [Activity.jsonFields])
    rw [hstorage]
    split <;> simp [*]

/-! ## Storage -/

/-- **Group records survive storage.** A record is read back from its text, in which only what
is empty, zero or missing is left out; and a text that was accepted, in whatever way it was
written, is from its first rewriting on rewritten to the same text. -/
theorem survives_storage :
    (∀ g : GroupSpec, g.Plain →
      read? g.write = some g ∧ ∃ j, Json.parse? g.write = some j ∧ g.OmitsDefaults j) ∧
    ∀ text g, read? text = some g → g.Plain → (read? g.write).map write = some g.write := by
  refine ⟨fun g h => ⟨read?_write h, g.toJson, g.parse?_write, g.omitsDefaults_toJson⟩, ?_⟩
  intro text g _ h
  rw [read?_write h]
  rfl

/-- A record as another program may write it: with escapes, a label given twice, a metric as an
array, and a time with an offset. -/
def applesText : String :=
  "\x7b\"name\":\"\\u00e9 \\ud83c\\udf4f\",\"labels\":\x7b\"a\":\"x\",\"a\":\"\\n\"\x7d,
\"podsDetails\":\x7b\"p\":\x7b\"startTime\":\"0000-01-01t01:59:59.12+01:00\",
\"endTime\":\"9999-12-31T23:59:59.123456789Z\",\"metric\":[18446744073709551615,0,1,2]\x7d\x7d\x7d"

/-- What that text stands for. -/
def apples : GroupSpec :=
  { name := "é 🍏"
    labels := .ofList [("a", "\n")]
    windows := .ofList
      [("p",
          { start := ⟨-62167215601, 120000000⟩, finish := some ⟨253402300799, 123456789⟩
            metric := ⟨18446744073709551615, 0, 1, 2⟩ })] }

theorem apples_survive_storage :
    read? applesText = some apples ∧ apples.Plain ∧ read? apples.write = some apples ∧
      (∃ j, Json.parse? apples.write = some j ∧ apples.OmitsDefaults j) ∧
      (read? apples.write).map write = some apples.write := by
  have hread : read? applesText = some apples := by decide +kernel
  have hplain : apples.Plain := by decide +kernel
  obtain ⟨hback, homits⟩ := survives_storage.1 apples hplain
  exact ⟨hread, hplain, hback, homits, survives_storage.2 applesText apples hread hplain⟩

end GroupSpec

end Chargeback
