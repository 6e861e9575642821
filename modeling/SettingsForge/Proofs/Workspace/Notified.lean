import SettingsForge.Proofs.Workspace.Steps

set_option autoImplicit false

/-! # Clients are notified of exactly what changed

While a step edits an instance or an entry below it, a client of the instance takes note of a property
only if the property reads unequal after the step, and of every property that does not read the same
(`Workspace.notified_of_exactly_what_changed`). -/

namespace SettingsForge.Workspace

open Hub Settings

/-- Reading sees the instances only. -/
theorem read_congr {w v : Workspace} (h : v.instances = w.instances) (place : Location) :
    v.read place = w.read place := by
  unfold Workspace.read
  rw [h]

/-- Take a workspace that a run reaches and a step that edits an observable instance, or an entry at
    any depth below it, whether the step succeeds or not. Clients have ended subscriptions with numbers
    of the same instance only. Then the instance is there after the step. A property of which a client
    takes no note, being subscribed all the time, reads as before, and one that any client takes note
    of reads unequal. -/
theorem notified_of_exactly_what_changed {w : Workspace} (reachable : w.Reachable) {action : Action}
    {place : Location} (edits : action.edited = some place) {above below : Path}
    (path : place.path = above ++ below) {x : Settings}
    (read : w.read ⟨place.name, above⟩ = .ok x) (observable : x.kind.isObservable = true)
    (disciplined : (w.perform action).subject.context.hub.Disciplined) :
    ∃ n y, x.notifier = some n ∧ y.notifier = some n ∧
      (w.perform action).subject.read ⟨place.name, above⟩ = .ok y ∧
      (∀ id client reaction property,
        (id, .client client reaction) ∈ w.context.hub.subscribers n →
        (id, .client client reaction) ∈ (w.perform action).subject.context.hub.subscribers n →
        (∀ d ∈ (w.perform action).subject.context.hub.deliveries,
          d.notifier = n → d.subscription = id → d.property ≠ property) →
        y.get property = x.get property) ∧
      ∀ d ∈ (w.perform action).subject.context.hub.deliveries, d.notifier = n →
        ∃ before after, x.get d.property = .ok before ∧ y.get d.property = .ok after ∧
          before.equals after = false := by
  obtain ⟨known, sound⟩ := reachable.sound
  have sound := sound.fresh
  have read : w.fresh.read ⟨place.name, above⟩ = .ok x := read
  obtain ⟨root, there, -, part, -⟩ := sound.read read
  have wired := ((sound.forest.rooted _ there).toWired).part part
  obtain ⟨n, own⟩ := Option.isSome_iff_exists.1 (wired.self.notifier.trans observable)
  obtain ⟨-, α, f, operates, instances, context⟩ := sound.edits edits
  obtain ⟨y, read', ns, evolves, tells⟩ := sound.read_edit operates path read
  rw [← context] at evolves
  have tells := tells sound.tidy wired (by rw [own]; rfl)
  have heard := evolves.heard sound.tidy wired disciplined own (.self n)
  obtain ⟨added, deliveries, only, notes⟩ := heard.exists_notice
  have deliveries : (w.perform action).subject.context.hub.deliveries = added := deliveries
  refine ⟨n, y, own, evolves.alike.notifier.trans own, (read_congr instances _).trans read', ?_, ?_⟩
  · intro id client reaction property early late unnoticed
    refine tells.get_same evolves.alike.schema fun mem => ?_
    obtain ⟨t, ht, topic⟩ := List.mem_map.1 mem
    have note : ⟨n, id, client, t.topic⟩ ∈ added.filter
        (fun d => d.notifier == n && d.subscription == id) := by
      rw [notes id client reaction early late]
      exact List.mem_map_of_mem ht
    rw [deliveries] at unnoticed
    exact unnoticed _ (List.mem_of_mem_filter note) rfl rfl topic
  · intro d mem at_n
    rw [deliveries] at mem
    obtain ⟨t, ht, property⟩ := only d mem at_n
    rw [property]
    exact tells.get_changed (List.mem_map_of_mem ht) (evolves.topic_mem_names t ht)

/-- The client of a shelf hears of its entries, which read unequal, and not of its title. -/
theorem notified_of_entries :
    ∃ x y before after, shelves.read ⟨"first", []⟩ = .ok x ∧
      (shelves.perform recount).subject.read ⟨"first", []⟩ = .ok y ∧
      y.get "title" = x.get "title" ∧ x.get "entries" = .ok before ∧ y.get "entries" = .ok after ∧
      before.equals after = false := by
  obtain ⟨n, y, own, -, read, unnoticed, noticed⟩ :=
    @notified_of_exactly_what_changed shelves reachable_shelves recount
      ⟨"first", [("entries", "a")]⟩ rfl [] [("entries", "a")] rfl _ rfl rfl disciplined_recount
  cases own
  rw [deliveries_recount] at unnoticed noticed
  obtain ⟨before, after, first, second, unequal⟩ := noticed _ (List.mem_cons_self ..) rfl
  refine ⟨_, y, before, after, rfl, read, ?_, first, second, unequal⟩
  refine unnoticed 0 "view" {} "title" (by decide +kernel) (by decide +kernel) ?_
  decide

end SettingsForge.Workspace
