import SettingsForge.Proofs.Engine.Faults
import SettingsForge.Proofs.Workspace.Steps

set_option autoImplicit false

/-! # The kinds that a schema offers

Whether a fresh engine makes instances of a schema is decided by the schema and all that it nests, at
any depth. A default that cannot be resolved rules out all kinds with one error, and a type without
equality rules out the kinds that announce changes (`Workspace.kinds_offered_by_the_closure`). -/

namespace SettingsForge

open Schema

namespace Engine

/-- What a fresh engine with a catalog answers to a request for a kind of a schema. -/
def offer (serial : EngineId) (catalog : Catalog) (s : Schema) (kind : Kind) :
    Except SettingsError Factory :=
  ((unused serial catalog).factory s kind).answer

variable {known : Schema → Prop} {serial : EngineId} {catalog : Catalog} {s : Schema}

theorem offer_of_error (identified : Identified known) (hs : known s) {e : SettingsError}
    (failed : (s.resolve catalog).blueprint = .error e) (kind : Kind) :
    offer serial catalog s kind = .error e := by
  rw [offer, answer_factory identified (holds_unused known serial catalog) hs, Resolution.blueprintFor,
    failed]
  rfl

theorem offer_of_blueprint (identified : Identified known) (hs : known s) {b : Blueprint}
    (made : (s.resolve catalog).blueprint = .ok b) (kind : Kind) :
    offer serial catalog s kind =
      match (s.resolve catalog).observable with
      | some e => if kind.isObservable then .error e else .ok ⟨serial, b, kind⟩
      | none => .ok ⟨serial, b, kind⟩ := by
  rw [offer, answer_factory identified (holds_unused known serial catalog) hs,
    Resolution.blueprintFor, made]
  cases (s.resolve catalog).observable with
  | none => rfl
  | some e =>
      dsimp only
      split <;> rfl

/-- A kind that announces nothing is offered if and only if there is a blueprint. -/
theorem offer_plain_iff (identified : Identified known) (hs : known s) {kind : Kind}
    (plain : kind.isObservable = false) :
    (∃ f, offer serial catalog s kind = .ok f) ↔ ∃ b, (s.resolve catalog).blueprint = .ok b := by
  constructor
  · rintro ⟨f, offered⟩
    cases made : (s.resolve catalog).blueprint with
    | ok b => exact ⟨b, rfl⟩
    | error e =>
        rw [offer_of_error identified hs made] at offered
        cases offered
  · rintro ⟨b, made⟩
    refine ⟨⟨serial, b, kind⟩, ?_⟩
    rw [offer_of_blueprint identified hs made]
    split
    · rw [if_neg (by simp [plain])]
    · rfl

/-- With a blueprint, a kind that announces changes is offered if and only if all types have equality. -/
theorem offer_observable_iff (identified : Identified known) (hs : known s) {b : Blueprint}
    (made : (s.resolve catalog).blueprint = .ok b) {kind : Kind}
    (observable : kind.isObservable = true) :
    (∃ f, offer serial catalog s kind = .ok f) ↔ (s.resolve catalog).observable = none := by
  rw [offer_of_blueprint identified hs made]
  cases (s.resolve catalog).observable <;> simp [observable]

/-- A schema of which some kind is offered has no fault that rules out all kinds. -/
theorem faultless_of_offer (identified : Identified known) (hs : known s) {kind : Kind} {f : Factory}
    (offered : offer serial catalog s kind = .ok f) : s.Faultless (Unresolved catalog) := by
  refine (failure?_resolve_iff catalog s).2.1 ?_
  cases made : (s.resolve catalog).blueprint with
  | ok b => exact ⟨b, rfl⟩
  | error e =>
      rw [offer_of_error identified hs made] at offered
      cases offered

/-- Whatever an engine was asked before, it answers as a fresh one. -/
theorem Held.answer_eq_offer {engine : Engine} (identified : Identified known)
    (h : Held known engine) (hs : known s) (kind : Kind) :
    (engine.factory s kind).answer = offer engine.serial engine.catalog s kind := by
  obtain ⟨schemas, holds⟩ := h
  rw [answer_factory identified holds hs, offer,
    answer_factory identified (holds_unused known engine.serial engine.catalog) hs]

end Engine

namespace Workspace

open Engine

variable {w : Workspace} {name : String} {s : Schema}

/-- Take any schema that a run builds, and a fresh engine with any catalog. The kinds that announce
    nothing are offered if and only if all defaults in the schema and in what it nests, at any depth,
    can be resolved. If not, all kinds fail with one error, which is that of the schema's first such
    property, or else of the first nested schema that has one, and so on. If so, the kinds that announce
    changes are offered if and only if all types there have equality, and otherwise fail with one error,
    found the same way. -/
theorem kinds_offered_by_the_closure (reachable : w.Reachable) (named : w.schema name = .ok s)
    (serial : EngineId) (catalog : Catalog) :
    (∀ kind, kind.isObservable = false →
      ((∃ f, offer serial catalog s kind = .ok f) ↔ s.Faultless (Unresolved catalog))) ∧
    (¬ s.Faultless (Unresolved catalog) →
      ∃ e, (∀ e', s.FirstFault (Unresolved catalog) e' ↔ e' = e) ∧
        ∀ kind, offer serial catalog s kind = .error e) ∧
    (s.Faultless (Unresolved catalog) →
      (∀ kind, kind.isObservable = true →
        ((∃ f, offer serial catalog s kind = .ok f) ↔ s.Faultless Incomparable)) ∧
      (¬ s.Faultless Incomparable →
        ∃ e, (∀ e', s.FirstFault Incomparable e' ↔ e' = e) ∧
          ∀ kind, kind.isObservable = true → offer serial catalog s kind = .error e)) := by
  obtain ⟨known, sound⟩ := reachable.sound
  have identified := sound.registry.toIdentified
  have hs := sound.schema named
  obtain ⟨failed_iff, made_iff⟩ := failure?_resolve_iff catalog s
  obtain ⟨some_iff, none_iff⟩ := observable_resolve_iff catalog s
  refine ⟨fun kind plain => ?plain, fun faulty => ?failed, fun faultless => ?observable⟩
  case plain => exact (offer_plain_iff identified hs plain).trans made_iff
  case failed =>
    cases found : (s.resolve catalog).blueprint with
    | ok b => exact absurd (made_iff.1 ⟨b, found⟩) faulty
    | error e =>
        refine ⟨e, fun e' => ?_, offer_of_error identified hs found⟩
        rw [← failed_iff e', found, Except.error.injEq, eq_comm]
  case observable =>
    obtain ⟨b, made⟩ := made_iff.2 faultless
    refine ⟨fun kind observable => ?_, fun faulty => ?_⟩
    · exact (offer_observable_iff identified hs made observable).trans none_iff
    · cases found : (s.resolve catalog).observable with
      | none => exact absurd (none_iff.1 found) faulty
      | some e =>
          refine ⟨e, fun e' => ?_, fun kind observable => ?_⟩
          · rw [← some_iff e', found, Option.some.injEq, eq_comm]
          · rw [offer_of_blueprint identified hs made, found]
            exact if_pos observable

/-! ### A shelf of opaque tags -/

/-- An object type whose values cannot be compared. -/
def tag : ObjectType := { name := "Tag", hasEquality := false }

def taggedEntry : Schema :=
  .mk ⟨0⟩ "Entry" none [⟨"label", .value .str, []⟩, ⟨"tags", .value (.list (.object tag)), []⟩]
    [("label", 0), ("tags", 1)]

def taggedShelf : Schema :=
  .mk ⟨1⟩ "Shelf" none [⟨"count", .value .int, []⟩, ⟨"entries", .dict taggedEntry, []⟩]
    [("count", 0), ("entries", 1)]

/-- The shelf's own properties can be compared; the second one of its entries cannot. -/
theorem firstFault_taggedShelf :
    taggedShelf.FirstFault Incomparable (.missingEquality "Entry" "tags" "Tag") := by
  refine @FirstFault.nested _ _ taggedEntry [] [] _ ?_ rfl nofun
    (@FirstFault.own _ _ [⟨"label", .value .str, []⟩] [] _ _ rfl ?_
      ⟨_, tag, rfl, .item (.self tag), rfl, rfl⟩)
  · rintro p mem e ⟨type, o, declared, mentions, -⟩
    simp only [taggedShelf, Schema.properties, List.mem_cons, List.not_mem_nil, or_false] at mem
    rcases mem with rfl | rfl
    · cases declared
      cases mentions
    · cases declared
  · rintro p mem e ⟨type, o, declared, mentions, -⟩
    cases List.mem_singleton.1 mem
    cases declared
    cases mentions

def tagged : Workspace :=
  (start "engine" .empty).run [
    .build "entry" "Entry" none [⟨"label", .value .str, []⟩, ⟨"tags", .value (.list (.object tag)), []⟩],
    .build "shelf" "Shelf" none [⟨"count", .value .int, []⟩, ⟨"entries", .dict "entry", []⟩]]

theorem reachable_tagged : tagged.Reachable := ⟨"engine", .empty, _, rfl⟩

/-- The tags of the entries rule out a shelf that announces changes, and no other one. -/
theorem offers_plain_shelves_of_tags :
    tagged.schema "shelf" = .ok taggedShelf ∧
      (∃ f, offer 0 .empty taggedShelf .copy = .ok f) ∧ (∃ f, offer 0 .empty taggedShelf .read = .ok f) ∧
      offer 0 .empty taggedShelf .inpc = .error (.missingEquality "Entry" "tags" "Tag") ∧
      offer 0 .empty taggedShelf .real = .error (.missingEquality "Entry" "tags" "Tag") := by
  have named : tagged.schema "shelf" = .ok taggedShelf := rfl
  obtain ⟨plain, -, observable⟩ := kinds_offered_by_the_closure reachable_tagged named 0 .empty
  have faultless := (plain .copy rfl).1 ⟨_, rfl⟩
  obtain ⟨-, fails⟩ := observable faultless
  obtain ⟨e, only, failed⟩ := fails firstFault_taggedShelf.not_faultless
  cases (only _).1 firstFault_taggedShelf
  exact ⟨named, (plain .copy rfl).2 faultless, (plain .read rfl).2 faultless, failed .inpc rfl,
    failed .real rfl⟩

end Workspace

end SettingsForge
