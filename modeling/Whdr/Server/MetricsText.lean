import Mathlib.Data.List.Induction
import Whdr.Lib.PromText
import Whdr.Server.MetricsSeries

/-! The metrics page read back in the Prometheus text format: the samples of every extension
row and of every subscriber name, with their labels as they were. -/
namespace Whdr.Metrics

open Daemon (State)
open Lifecycle (ExtHandle)
open PromText (Sample readPage readPage_write)

variable {s later : State} {registry : SubscriberRegistry} {rows : Listing s registry}
  {readings : ExtHandle → Readings} {uptimeMs : Nat}

/-! ## The samples of a status document -/

/-- The samples of these numbers, all with the same labels. -/
def samples (labels : List (String × String)) (values : List (String × Nat)) : List Sample :=
  values.map fun (name, n) => ⟨name, labels, n⟩

/-- The connections with a name. -/
def connections (registry : SubscriberRegistry) (name : String) : List Subscriber :=
  registry.subscribers.values.filter (·.name = name)

/-- A ready row has its counters, a failed one is only down. -/
def extensionSamples (rows : Listing s registry) (readings : ExtHandle → Readings) :
    List Sample :=
  (rows.ready.flatMap fun handle => samples [("ext", handle.id)] (readyValues (readings handle))) ++
  rows.failed.flatMap fun row => samples [("ext", row.1)] [("whdr_ext_up", 0)]

/-- Every name once, where it comes first, with the sums over its connections. -/
def subscriberSamples (rows : Listing s registry) : List Sample :=
  (rows.subscribers.map Subscriber.name).eraseDups.flatMap fun name =>
    samples [("name", name)]
      [("whdr_subscriber_delivered",
          ((connections registry name).map fun sub => sub.queue.delivered).sum),
        ("whdr_subscriber_dropped",
          ((connections registry name).map fun sub => sub.queue.dropped).sum),
        ("whdr_subscriber_connections", (connections registry name).length)]

def totalSamples (later : State) (registry : SubscriberRegistry) : List Sample :=
  samples [] ([("whdr_routes", later.tables.routes.size),
    ("whdr_unavailable_routes", later.tables.unavailableRoutes.size),
    ("whdr_channel_prefixes", later.tables.channelPrefixes.size),
    ("whdr_subscriber_count", registry.subscribers.size)] ++ deliveryValues registry)

def pageSamples (rows : Listing s registry) (later : State) (readings : ExtHandle → Readings)
    (uptimeMs : Nat) : List Sample :=
  samples [] [("whdr_uptime_ms", uptimeMs)] ++ (extensionSamples rows readings ++
    (subscriberSamples rows ++ totalSamples later registry))

/-! ## One row a name -/

/-- The row of a name over these connections. -/
def sums (subs : List Subscriber) (name : String) : NameRow :=
  let mine := subs.filter (·.name = name)
  ⟨name, (mine.map fun sub => sub.queue.delivered).sum, (mine.map fun sub => sub.queue.dropped).sum,
    mine.length⟩

/-- A connection more in the row of its name. -/
def NameRow.add (row : NameRow) (delivered dropped : Nat) : NameRow :=
  ⟨row.name, row.delivered + delivered, row.dropped + dropped, row.connections + 1⟩

theorem addRow_map {names : List String} (distinct : names.Nodup) {row : String → NameRow}
    (named : ∀ name, (row name).name = name) (delivered dropped : Nat) (name : String) :
    addRow delivered dropped name (names.map row) =
      if name ∈ names then
        names.map fun n => if n = name then (row n).add delivered dropped else row n
      else names.map row ++ [⟨name, delivered, dropped, 1⟩] := by
  induction names with
  | nil => rfl
  | cons n names ih =>
    obtain ⟨absent, distinct⟩ := List.nodup_cons.mp distinct
    rw [List.map_cons, addRow, named]
    by_cases same : n = name
    · subst same
      have others : names.map (fun m => if m = n then (row m).add delivered dropped else row m) =
          names.map row := by
        apply List.map_congr_left
        intro m mem
        have other : m ≠ n := fun eq => absent (eq ▸ mem)
        exact if_neg other
      rw [if_pos rfl, if_pos List.mem_cons_self, List.map_cons, if_pos rfl, others, NameRow.add,
        named]
    · rw [if_neg same, ih distinct]
      by_cases mem : name ∈ names
      · rw [if_pos mem, if_pos (List.mem_cons_of_mem _ mem), List.map_cons, if_neg same]
      · have absent : name ∉ n :: names := by simp [Ne.symm same, mem]
        rw [if_neg mem, if_neg absent]
        rfl

theorem byName_snoc (subs : List Subscriber) (sub : Subscriber) :
    byName ((subs ++ [sub]).map subscriberRow) =
      addRow sub.queue.delivered sub.queue.dropped sub.name (byName (subs.map subscriberRow)) := by
  rw [List.map_append, byName, List.foldl_append]
  rfl

theorem eraseDups_snoc (names : List String) (name : String) :
    (names ++ [name]).eraseDups =
      if name ∈ names then names.eraseDups else names.eraseDups ++ [name] := by
  rw [List.eraseDups_append]
  split
  · rename_i mem
    simp [List.removeAll, mem]
  · rename_i absent
    simp [List.removeAll, absent, List.eraseDups_cons]

theorem sums_snoc (subs : List Subscriber) (sub : Subscriber) (name : String) :
    sums (subs ++ [sub]) name =
      if name = sub.name then (sums subs name).add sub.queue.delivered sub.queue.dropped
      else sums subs name := by
  by_cases same : name = sub.name
  · subst same
    simp [sums, NameRow.add, List.filter_append]
  · have other : ¬sub.name = name := fun eq => same eq.symm
    simp [sums, List.filter_append, same, other]

/-- The loop over the connections makes one row a name, with its sums. -/
theorem byName_sums (subs : List Subscriber) :
    byName (subs.map subscriberRow) = (subs.map Subscriber.name).eraseDups.map (sums subs) := by
  induction subs using List.reverseRecOn with
  | nil => rfl
  | append_singleton subs sub ih =>
    have distinct : (subs.map Subscriber.name).eraseDups.Nodup := by
      have names := byName_distinct (subs.map subscriberRow)
      rw [ih, List.map_map] at names
      exact names.of_map _
    rw [byName_snoc, ih, addRow_map distinct (fun _ => rfl), List.map_append, List.map_singleton,
      eraseDups_snoc]
    by_cases known : sub.name ∈ subs.map Subscriber.name
    · rw [if_pos known, if_pos (List.mem_eraseDups.mpr known)]
      exact List.map_congr_left fun name _ => (sums_snoc subs sub name).symm
    · have alone : sums (subs ++ [sub]) sub.name =
          ⟨sub.name, sub.queue.delivered, sub.queue.dropped, 1⟩ := by
        have none : subs.filter (fun other => other.name = sub.name) = [] := by
          rw [List.filter_eq_nil_iff]
          intro other mem same
          exact known (List.mem_map.mpr ⟨other, mem, by simpa using same⟩)
        simp [sums, List.filter_append, none]
      rw [if_neg known, if_neg fun mem => known (List.mem_eraseDups.mp mem), List.map_append,
        List.map_singleton, alone]
      congr 1
      apply List.map_congr_left
      intro name mem
      have other : name ≠ sub.name := fun eq => known (List.mem_eraseDups.mp (eq ▸ mem))
      rw [sums_snoc, if_neg other]

/-- The sums do not depend on the order. -/
theorem sums_perm {subs others : List Subscriber} (perm : subs.Perm others) (name : String) :
    sums subs name = sums others name := by
  have mine := perm.filter (·.name = name)
  simp only [sums, (mine.map _).sum_nat, mine.length_eq]

/-! ## The page -/

/-- The gauge of a sample. -/
def gaugeOf (sample : Sample) : Gauge := ⟨sample.name, sample.labels, number sample.value⟩

theorem renderLabels_write (labels : List (String × String)) :
    renderLabels labels = PromText.writeLabels labels := by
  induction labels with
  | nil => rfl
  | cons label labels ih =>
    obtain ⟨key, value⟩ := label
    have escaped : escapeLabel value = value.toList.flatMap PromText.escape := escapeLabel_eq value
    cases labels with
    | nil => simp [renderLabels, PromText.writeLabels, PromText.writeLabel, escaped]
    | cons next labels =>
      simp [renderLabels, PromText.writeLabels, PromText.writeLabel, escaped, ih]

theorem render_gaugeOf (sample : Sample) :
    (gaugeOf sample).render = PromText.write sample ++ ['\n'] := by
  obtain ⟨name, labels, value⟩ := sample
  simp only [gaugeOf, Gauge.render, Gauge.line, Gauge.rendered, number, Option.map_some,
    Gauge.series, PromText.write, renderLabels_write]
  rfl

theorem numbered_samples (labels : List (String × String)) (values : List (String × Nat)) :
    numbered labels values = (samples labels values).map gaugeOf := by
  rw [samples, List.map_map]
  rfl

theorem gauges_samples : gauges (statusJson rows later readings uptimeMs) =
    (pageSamples rows later readings uptimeMs).map gaugeOf := by
  have extensions : extensionPart rows readings = (extensionSamples rows readings).map gaugeOf := by
    have failed : failedGauges = fun id =>
        (samples [("ext", id)] [("whdr_ext_up", 0)]).map gaugeOf := by
      funext id
      exact numbered_samples _ _
    simp only [extensionPart, extensionSamples, readyGauges, failed, numbered_samples,
      List.map_append, List.map_flatMap]
  have subscribers : subscriberPart rows = (subscriberSamples rows).map gaugeOf := by
    rw [subscriberPart, byName_sums, funext (sums_perm rows.subscriberRows), subscriberSamples,
      List.flatMap_map, List.map_flatMap]
    rfl
  rw [gauges_status, extensions, subscribers, totalsPart, numbered_samples, numbered_samples]
  simp only [pageSamples, totalSamples, List.map_append]

theorem samples_valid {labels : List (String × String)} {values : List (String × Nat)}
    (names : List String) (sub : (values.map Prod.fst).Sublist names)
    (valid : names.all (PromText.isName PromText.metricStart PromText.metricChar) = true)
    (keys : ∀ label ∈ labels,
      PromText.isName PromText.labelStart PromText.labelChar label.1 = true) :
    ∀ sample ∈ samples labels values, sample.Valid := by
  intro sample mem
  obtain ⟨value, inside, rfl⟩ := List.mem_map.mp mem
  refine ⟨?_, keys⟩
  exact List.all_eq_true.mp valid _ (sub.subset (List.mem_map_of_mem inside))

theorem pageSamples_valid :
    ∀ sample ∈ pageSamples rows later readings uptimeMs, sample.Valid := by
  intro sample mem
  simp only [pageSamples, extensionSamples, subscriberSamples, totalSamples, List.mem_append,
    List.mem_flatMap] at mem
  obtain mem | (⟨handle, -, mem⟩ | ⟨id, -, mem⟩) | ⟨name, -, mem⟩ | mem := mem
  · exact samples_valid ["whdr_uptime_ms"] (List.Sublist.refl _) (by decide) (by simp) sample mem
  · exact samples_valid extensionNames (readyValues_names _) (by decide) (by simp; decide) sample mem
  · exact samples_valid ["whdr_ext_up"] (List.Sublist.refl _) (by decide) (by simp; decide) sample
      mem
  · exact samples_valid subscriberNames (List.Sublist.refl _) (by decide) (by simp; decide) sample
      mem
  · have names := (@totals_block later registry).names
    rw [totalsPart, numbered, List.map_map] at names
    exact samples_valid totalNames names (by decide) (by simp) sample mem

/-- The page of a status document, in whatever order its rows come, is read back as its samples,
and as nothing else. -/
theorem metrics_read_back :
    readPage (renderPrometheus (statusJson rows later readings uptimeMs)) =
      some (pageSamples rows later readings uptimeMs) := by
  have text : renderPrometheus (statusJson rows later readings uptimeMs) =
      (pageSamples rows later readings uptimeMs).flatMap fun sample =>
        PromText.write sample ++ ['\n'] := by
    rw [renderPrometheus, gauges_samples, List.flatMap_map]
    simp only [render_gaugeOf]
  rw [text]
  exact readPage_write pageSamples_valid

end Whdr.Metrics
