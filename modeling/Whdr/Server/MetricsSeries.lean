import Whdr.Server.Metrics

/-! The series of the metrics page. Ready rows go by the id an extension registered,
failed rows by the key of the failure, so a page repeats a series when a running extension
has the id of a failure. -/
namespace Whdr.Metrics

open Daemon (State)
open Lifecycle (ExtHandle)

variable {s later : State} {registry : SubscriberRegistry} {rows : Listing s registry}
  {readings : ExtHandle → Readings} {uptimeMs : Nat}

/-! ## The gauges of a status document -/

/-- The gauges of these numbers, all with the same labels. -/
def numbered (labels : List (String × String)) (values : List (String × Nat)) : List Gauge :=
  values.map fun (name, n) => ⟨name, labels, number n⟩

def readyValues (r : Readings) : List (String × Nat) :=
  [("whdr_ext_up", 1), ("whdr_ext_restarts", r.restarts), ("whdr_ext_in_flight", r.inFlight),
    ("whdr_ext_protocol_errors", r.protocolErrors),
    ("whdr_ext_namespace_violations", r.namespaceViolations),
    ("whdr_ext_consecutive_timeouts", r.consecutiveTimeouts),
    ("whdr_ext_events_emitted", r.eventsEmitted)] ++
    (lastEventAt r.lastEventAtMs).toList.map fun at_ => ("whdr_ext_last_event_at_ms", at_)

def readyGauges (id : String) (r : Readings) : List Gauge :=
  numbered [("ext", id)] (readyValues r)

def failedGauges (id : String) : List Gauge := numbered [("ext", id)] [("whdr_ext_up", 0)]

theorem extensionGauges_ready (handle : ExtHandle) (r : Readings) :
    extensionGauges (readyRow handle r) = readyGauges handle.id r := by
  unfold readyGauges readyValues readyRow
  cases lastEventAt r.lastEventAtMs <;> rfl

theorem extensionGauges_failed (id reason : String) :
    extensionGauges (failedRow id reason) = failedGauges id := rfl

/-- The extension part of the page. -/
def extensionPart (rows : Listing s registry) (readings : ExtHandle → Readings) : List Gauge :=
  (rows.ready.flatMap fun handle => readyGauges handle.id (readings handle)) ++
    rows.failed.flatMap fun row => failedGauges row.1

def subscriberPart (rows : Listing s registry) : List Gauge :=
  (byName (rows.subscribers.map subscriberRow)).flatMap NameRow.gauges

def deliveryValues (registry : SubscriberRegistry) : List (String × Nat) :=
  match registry.delivery with
  | some log => [("whdr_delivery_enabled", 1), ("whdr_delivery_head_seq", log.head),
      ("whdr_delivery_floor_seq", log.floor), ("whdr_delivery_retained_events", log.retainedCount),
      ("whdr_delivery_retained_bytes", log.retainedBytes),
      ("whdr_delivery_persist_errors", registry.persistErrors)]
  | none => [("whdr_delivery_enabled", 0)]

/-- The gauges without labels that follow. -/
def totalsPart (later : State) (registry : SubscriberRegistry) : List Gauge :=
  numbered [] ([("whdr_routes", later.tables.routes.size),
    ("whdr_unavailable_routes", later.tables.unavailableRoutes.size),
    ("whdr_channel_prefixes", later.tables.channelPrefixes.size),
    ("whdr_subscriber_count", registry.subscribers.size)] ++ deliveryValues registry)

theorem Listing.length_subscribers (rows : Listing s registry) :
    rows.subscribers.length = registry.subscribers.size := by
  rw [rows.subscriberRows.length_eq, OrdMap.values, List.length_map, OrdMap.size]

theorem deliveryGauges_status : deliveryGauges (deliveryStatus registry) =
    numbered [] (deliveryValues registry) := by
  unfold deliveryStatus deliveryValues
  cases registry.delivery <;> rfl

theorem totals_status :
    globalGauges (index (statusJson rows later readings uptimeMs) "global") ++
      deliveryGauges (index (statusJson rows later readings uptimeMs) "delivery") =
      totalsPart later registry := by
  have total : globalGauges (index (statusJson rows later readings uptimeMs) "global") =
      numbered [] [("whdr_routes", later.tables.routes.size),
        ("whdr_unavailable_routes", later.tables.unavailableRoutes.size),
        ("whdr_channel_prefixes", later.tables.channelPrefixes.size),
        ("whdr_subscriber_count", registry.subscribers.size)] := by
    rw [← rows.length_subscribers]
    rfl
  have delivery : index (statusJson rows later readings uptimeMs) "delivery" =
      deliveryStatus registry := rfl
  rw [total, delivery, deliveryGauges_status, totalsPart, numbered, numbered, numbered,
    List.map_append]

theorem gauges_status : gauges (statusJson rows later readings uptimeMs) =
    numbered [] [("whdr_uptime_ms", uptimeMs)] ++ (extensionPart rows readings ++
      (subscriberPart rows ++ totalsPart later registry)) := by
  have extensions : (rows.ready.map (fun handle => readyRow handle (readings handle)) ++
      rows.failed.map fun (id, reason) => failedRow id reason).flatMap extensionGauges =
        extensionPart rows readings := by
    rw [List.flatMap_append, List.flatMap_map, List.flatMap_map, extensionPart]
    simp only [extensionGauges_ready, extensionGauges_failed]
  rw [← extensions, ← @totals_status s later registry rows readings uptimeMs]
  rfl

/-! ## Blocks of gauges -/

/-- Gauges with the same labels, under different ones of the names. -/
structure Block (names : List String) (labels : List (String × String)) (gs : List Gauge) :
    Prop where
  labels : ∀ g ∈ gs, g.labels = labels
  names : (gs.map Gauge.name).Sublist names
  numbers : ∀ g ∈ gs, ∃ n, g.value = number n

/-- The names are metric names, each once. -/
def MetricNames (names : List String) : Prop :=
  names.Nodup ∧ ∀ name ∈ names, name.toList.all metricChar = true

instance (names : List String) : Decidable (MetricNames names) :=
  inferInstanceAs (Decidable (_ ∧ _))

theorem block_numbered {names : List String} (labels : List (String × String))
    {values : List (String × Nat)} (sub : (values.map Prod.fst).Sublist names) :
    Block names labels (numbered labels values) := by
  refine ⟨?_, ?_, ?_⟩
  · intro g mem
    obtain ⟨value, -, rfl⟩ := List.mem_map.mp mem
    rfl
  · rw [numbered, List.map_map]
    exact sub
  · intro g mem
    obtain ⟨value, -, rfl⟩ := List.mem_map.mp mem
    exact ⟨value.2, rfl⟩

theorem Block.nodup {names : List String} {labels : List (String × String)} {gs : List Gauge}
    (block : Block names labels gs) (fine : MetricNames names) : (gs.map Gauge.key).Nodup := by
  have distinct : (gs.map Gauge.name).Nodup := fine.1.sublist block.names
  apply List.Nodup.of_map fun key : List Char × Labels => String.ofList key.1
  have same : (gs.map Gauge.key).map (fun key => String.ofList key.1) = gs.map Gauge.name := by
    rw [List.map_map]
    apply List.map_congr_left
    intro g _
    simp [Gauge.key]
  rw [same]
  exact distinct

theorem Block.wellFormed {names : List String} {labels : List (String × String)} {gs : List Gauge}
    (block : Block names labels gs) (fine : MetricNames names)
    (keys : ∀ label ∈ labels, label.1.toList.all metricChar = true) (few : labels.length ≤ 1) :
    ∀ g ∈ gs, WellFormed g ∧ g.name ∈ names := by
  intro g mem
  have name : g.name ∈ names := block.names.subset (List.mem_map_of_mem mem)
  refine ⟨⟨block.numbers g mem, fine.2 _ name, ?_, ?_⟩, name⟩
  · rw [block.labels g mem]
    exact keys
  · rw [block.labels g mem]
    exact few

/-- Blocks with different labels share no series. -/
theorem nodup_blocks {α : Type} {names : List String} {rows : List α}
    {labels : α → List (String × String)} {f : α → List Gauge} (fine : MetricNames names)
    (blocks : ∀ row ∈ rows, Block names (labels row) (f row)) (distinct : (rows.map labels).Nodup) :
    ((rows.flatMap f).map Gauge.key).Nodup := by
  rw [List.map_flatMap, List.nodup_flatMap]
  constructor
  · intro row mem
    exact (blocks row mem).nodup fine
  · apply (List.pairwise_map.mp distinct).imp_of_mem
    intro a b memA memB different key inA inB
    obtain ⟨g, memG, rfl⟩ := List.mem_map.mp inA
    obtain ⟨h, memH, same⟩ := List.mem_map.mp inB
    apply different
    rw [← (blocks a memA).labels g memG, ← (blocks b memB).labels h memH]
    exact (key_injective same).2.symm

/-- Parts under different names share no series. -/
theorem nodup_parts {gs hs : List Gauge} {names others : List String}
    (left : ∀ g ∈ gs, g.name ∈ names) (right : ∀ h ∈ hs, h.name ∈ others)
    (apart : ∀ name ∈ names, name ∉ others) :
    ((gs ++ hs).map Gauge.key).Nodup ↔ (gs.map Gauge.key).Nodup ∧ (hs.map Gauge.key).Nodup := by
  rw [List.map_append, List.nodup_append]
  constructor
  · rintro ⟨first, second, -⟩
    exact ⟨first, second⟩
  · rintro ⟨first, second⟩
    refine ⟨first, second, ?_⟩
    rintro key inG other inH rfl
    obtain ⟨g, memG, rfl⟩ := List.mem_map.mp inG
    obtain ⟨h, memH, same⟩ := List.mem_map.mp inH
    apply apart g.name (left g memG)
    rw [(key_injective same).1.symm]
    exact right h memH

/-! ## The extensions -/

def extensionNames : List String := "whdr_ext_up" :: extensionMetrics.map Prod.fst

/-- The rows of the two tables: the id of a row, and its gauges. -/
def extensionRows (rows : Listing s registry) (readings : ExtHandle → Readings) :
    List (String × List Gauge) :=
  rows.ready.map (fun handle => (handle.id, readyGauges handle.id (readings handle))) ++
    rows.failed.map fun row => (row.1, failedGauges row.1)

/-- The ids the page has rows for. -/
def rowIds (s : State) : List String :=
  s.tables.extensions.values.map (·.id) ++ s.tables.failedExtensions.keys

theorem extensionRows_part :
    (extensionRows rows readings).flatMap Prod.snd = extensionPart rows readings := by
  simp only [extensionRows, extensionPart, List.flatMap_append, List.flatMap_map]

theorem extensionRows_ids : ((extensionRows rows readings).map Prod.fst).Perm (rowIds s) := by
  have ids : (extensionRows rows readings).map Prod.fst =
      rows.ready.map (·.id) ++ rows.failed.map Prod.fst := by
    simp only [extensionRows, List.map_append, List.map_map]
    rfl
  rw [ids]
  exact (rows.readyRows.map _).append (rows.failedRows.map _)

theorem readyValues_names (r : Readings) :
    ((readyValues r).map Prod.fst).Sublist extensionNames := by
  unfold readyValues
  cases lastEventAt r.lastEventAtMs with
  | none => exact List.dropLast_sublist extensionNames
  | some at_ => exact List.Sublist.refl extensionNames

theorem extensionRows_block : ∀ row ∈ extensionRows rows readings,
    Block extensionNames [("ext", row.1)] row.2 ∧
      ∃ value rest, row.2 = ⟨"whdr_ext_up", [("ext", row.1)], value⟩ :: rest := by
  intro row mem
  obtain ready | failed := List.mem_append.mp mem
  · obtain ⟨handle, -, rfl⟩ := List.mem_map.mp ready
    exact ⟨block_numbered _ (readyValues_names _), number 1, _, rfl⟩
  · obtain ⟨entry, -, rfl⟩ := List.mem_map.mp failed
    exact ⟨block_numbered _ (by decide), number 0, [], rfl⟩

/-- Every row has its gauge of being up. -/
theorem up_sublist {rows : List (String × List Gauge)}
    (up : ∀ row ∈ rows, ∃ value rest, row.2 = ⟨"whdr_ext_up", [("ext", row.1)], value⟩ :: rest) :
    ((rows.map Prod.fst).map fun id => (Gauge.mk "whdr_ext_up" [("ext", id)] .null).key).Sublist
      ((rows.flatMap Prod.snd).map Gauge.key) := by
  induction rows with
  | nil => exact List.Sublist.refl _
  | cons row rows ih =>
    obtain ⟨value, rest, eq⟩ := up row List.mem_cons_self
    have others := ih fun row mem => up row (List.mem_cons_of_mem _ mem)
    rw [List.flatMap_cons, eq, List.cons_append, List.map_cons, List.map_cons, List.map_cons]
    apply List.Sublist.cons_cons
    rw [List.map_append]
    exact others.trans (List.sublist_append_right _ _)

theorem extensionNames_fine : MetricNames extensionNames := by decide +kernel

/-- The series of the extensions are different exactly when the ids of the rows are. -/
theorem extensionPart_nodup :
    ((extensionPart rows readings).map Gauge.key).Nodup ↔ (rowIds s).Nodup := by
  rw [← extensionRows_part, ← (@extensionRows_ids s registry rows readings).nodup_iff]
  constructor
  · intro nodup
    have ups := nodup.sublist (up_sublist fun row mem => (extensionRows_block row mem).2)
    exact ups.of_map _
  · intro distinct
    apply nodup_blocks extensionNames_fine fun row mem => (extensionRows_block row mem).1
    have labels : (extensionRows rows readings).map (fun row => [("ext", row.1)]) =
        ((extensionRows rows readings).map Prod.fst).map fun id => [("ext", id)] := by
      rw [List.map_map]
      rfl
    rw [labels]
    apply distinct.map
    intro a b same
    simpa using same

/-! ## The page -/

def subscriberNames : List String :=
  ["whdr_subscriber_delivered", "whdr_subscriber_dropped", "whdr_subscriber_connections"]

def totalNames : List String :=
  ["whdr_routes", "whdr_unavailable_routes", "whdr_channel_prefixes", "whdr_subscriber_count",
    "whdr_delivery_enabled", "whdr_delivery_head_seq", "whdr_delivery_floor_seq",
    "whdr_delivery_retained_events", "whdr_delivery_retained_bytes", "whdr_delivery_persist_errors"]

theorem subscriberNames_fine : MetricNames subscriberNames := by decide +kernel

theorem totalNames_fine : MetricNames totalNames := by decide +kernel

theorem nameRow_block (row : NameRow) :
    Block subscriberNames [("name", row.name)] row.gauges :=
  @block_numbered subscriberNames [("name", row.name)]
    [("whdr_subscriber_delivered", row.delivered), ("whdr_subscriber_dropped", row.dropped),
      ("whdr_subscriber_connections", row.connections)] (List.Sublist.refl _)

theorem addRow_names (delivered dropped : Nat) (name : String) (rows : List NameRow) :
    (addRow delivered dropped name rows).map NameRow.name =
      if name ∈ rows.map NameRow.name then rows.map NameRow.name
      else rows.map NameRow.name ++ [name] := by
  induction rows with
  | nil => rfl
  | cons row rows ih =>
    rw [addRow]
    by_cases same : row.name = name
    · simp [same]
    · rw [if_neg same, List.map_cons, ih, List.map_cons]
      simp only [List.mem_cons, Ne.symm same, false_or]
      split
      · rfl
      · rfl

/-- The connections of one name are one row. -/
theorem byName_distinct (subscribers : List Json) :
    ((byName subscribers).map NameRow.name).Nodup := by
  apply List.foldlRecOn (motive := fun rows : List NameRow => (rows.map NameRow.name).Nodup)
  · exact List.nodup_nil
  · intro rows distinct subscriber _
    split
    · exact distinct
    · rename_i name _
      rw [addRow_names]
      split
      · exact distinct
      · rename_i fresh
        exact List.nodup_append.mpr ⟨distinct, List.nodup_singleton _, by
          rintro a mem b single rfl
          exact fresh (List.mem_singleton.mp single ▸ mem)⟩

theorem subscriberPart_nodup : ((subscriberPart rows).map Gauge.key).Nodup := by
  apply nodup_blocks subscriberNames_fine fun row _ => nameRow_block row
  have labels : (byName (rows.subscribers.map subscriberRow)).map
      (fun row => [("name", row.name)]) =
      ((byName (rows.subscribers.map subscriberRow)).map NameRow.name).map
        fun name => [("name", name)] := by
    rw [List.map_map]
    rfl
  rw [labels]
  apply (byName_distinct _).map
  intro a b same
  simpa using same

theorem totals_block : Block totalNames [] (totalsPart later registry) := by
  apply block_numbered
  unfold deliveryValues
  cases registry.delivery with
  | none => exact List.take_sublist 5 totalNames
  | some log => exact List.Sublist.refl totalNames

/-- A gauge of the part is well formed, under one of the names. -/
def Part (names : List String) (gs : List Gauge) : Prop :=
  ∀ g ∈ gs, WellFormed g ∧ g.name ∈ names

theorem part_extensions : Part extensionNames (extensionPart rows readings) := by
  intro g mem
  rw [← extensionRows_part] at mem
  obtain ⟨row, inRows, mem⟩ := List.mem_flatMap.mp mem
  exact (extensionRows_block row inRows).1.wellFormed extensionNames_fine
    (by simp; decide) (by simp) g mem

theorem part_subscribers : Part subscriberNames (subscriberPart rows) := by
  intro g mem
  obtain ⟨row, -, mem⟩ := List.mem_flatMap.mp mem
  exact (nameRow_block row).wellFormed subscriberNames_fine (by simp; decide) (by simp) g mem

theorem part_totals : Part totalNames (totalsPart later registry) :=
  totals_block.wellFormed totalNames_fine (by simp) (by simp)

theorem Part.append {names others : List String} {gs hs : List Gauge} (left : Part names gs)
    (right : Part others hs) : Part (names ++ others) (gs ++ hs) := by
  intro g mem
  obtain mem | mem := List.mem_append.mp mem
  · exact ⟨(left g mem).1, List.mem_append_left _ (left g mem).2⟩
  · exact ⟨(right g mem).1, List.mem_append_right _ (right g mem).2⟩

theorem Part.nodup_iff {names others : List String} {gs hs : List Gauge} (left : Part names gs)
    (right : Part others hs) (apart : ∀ name ∈ names, name ∉ others) :
    ((gs ++ hs).map Gauge.key).Nodup ↔ (gs.map Gauge.key).Nodup ∧ (hs.map Gauge.key).Nodup :=
  nodup_parts (fun g mem => (left g mem).2) (fun h mem => (right h mem).2) apart

/-- The page repeats no series exactly when no two rows have one id. -/
theorem noRepeats_status :
    NoRepeats (renderPrometheus (statusJson rows later readings uptimeMs)) ↔
      (rowIds s).Nodup := by
  have first : Block ["whdr_uptime_ms"] [] (numbered [] [("whdr_uptime_ms", uptimeMs)]) :=
    block_numbered [] (List.Sublist.refl _)
  have uptime : Part ["whdr_uptime_ms"] (numbered [] [("whdr_uptime_ms", uptimeMs)]) :=
    first.wellFormed (by decide) (by simp) (by simp)
  have ending := (@part_subscribers s registry rows).append (@part_totals later registry)
  have labelled := (@part_extensions s registry rows readings).append ending
  have wf : ∀ g ∈ gauges (statusJson rows later readings uptimeMs), WellFormed g := by
    intro g mem
    rw [gauges_status] at mem
    exact (uptime.append labelled g mem).1
  rw [renderPrometheus, noRepeats_iff wf, gauges_status, uptime.nodup_iff labelled (by decide),
    part_extensions.nodup_iff ending (by decide), part_subscribers.nodup_iff part_totals (by decide),
    extensionPart_nodup]
  constructor
  · rintro ⟨-, distinct, -, -⟩
    exact distinct
  · intro distinct
    exact ⟨by simp [numbered], distinct, subscriberPart_nodup, totals_block.nodup totalNames_fine⟩

end Whdr.Metrics
