import SettingsForge.Settings.Copy

set_option autoImplicit false

/-! # Induction over a copy

`Settings.assign_induction` is the induction principle for copies. It has one case for each thing that
a copy does: it stops with what it has (`refuse`, `stop`, `halt`, `unmade`), writes a slot, assigns a
dictionary, copies into an entry, or makes one. A part that fails is followed by a part that stops at
once, so that no case has to be told apart by whether its first half succeeded. -/

namespace SettingsForge.Settings

theorem assign_induction
    {P : Settings → Settings → Context → Done Settings Unit → Prop}
    {Q : List Slot → Owner → List Slot → Context → Done (List Slot) Unit → Prop}
    {R : List Entry → DictRef → Merging → Context → Done Merging Unit → Prop}
    (mismatch : ∀ source target c e, P source target c ⟨.error e, target, c⟩)
    (refuse : ∀ source target c text, P source target c (target.refuse text c))
    (within : ∀ source schema kind slots notifier provider c d,
      Q source ⟨schema.name, kind, notifier⟩ slots c d →
      ∀ sourceSchema sourceKind sourceNotifier sourceProvider,
        P (.mk sourceSchema sourceKind source sourceNotifier sourceProvider)
          (.mk schema kind slots notifier provider) c
          (d.within fun after => .mk schema kind after notifier provider))
    (stop : ∀ source owner slots c e, Q source owner slots c ⟨.error e, slots, c⟩)
    (nil : ∀ source owner c, Q source owner [] c ⟨.ok (), [], c⟩)
    (dict : ∀ name theirs sourceEntries source owner property dict entries slots c
      start dropped d rest,
      Merging.start (sourceEntries.map EntryOf.key) entries c = (start, dropped) →
      R sourceEntries dict start dropped d →
      Q source owner slots (d.finishMerge dict.binding).context rest →
      Q (⟨name, .dict theirs sourceEntries⟩ :: source) owner
        (⟨property, .dict dict entries⟩ :: slots) c
        (rest.within (⟨property, .dict dict (d.finishMerge dict.binding).subject⟩ :: ·)))
    (write : ∀ name content source owner property current slots c rest,
      Q source owner slots (owner.write property current (ContentOf.value content) c).context rest →
      Q (⟨name, content⟩ :: source) owner (⟨property, current⟩ :: slots) c
        (rest.within
          (⟨property, (owner.write property current (ContentOf.value content) c).subject⟩ :: ·)))
    (halt : ∀ source dict m c e, R source dict m c ⟨.error e, m, c⟩)
    (done : ∀ dict m c, R [] dict m c ⟨.ok (), m, c⟩)
    (into : ∀ key forwarder source rest dict m c ours d d',
      Entries.find? m.entries key = some ours →
      P source ours.settings c d →
      R rest dict ⟨Entries.insert { ours with settings := d.subject } m.entries, m.structural⟩
        d.context d' →
      R (⟨key, forwarder, source⟩ :: rest) dict m c d')
    (unmade : ∀ key forwarder source rest dict m c made hub d e,
      Entries.find? m.entries key = none →
      dict.make c.hub = (made, hub) →
      P source made { c with hub := hub } d →
      R (⟨key, forwarder, source⟩ :: rest) dict m c ⟨.error e, m, d.context⟩)
    (make : ∀ key forwarder source rest dict m c made hub d heard after d',
      Entries.find? m.entries key = none →
      dict.make c.hub = (made, hub) →
      P source made { c with hub := hub } d →
      d.context.hub.forward d.subject.notifier dict.binding = (heard, after) →
      R rest dict ⟨Entries.insert ⟨key, heard, d.subject⟩ m.entries, true⟩
        { d.context with hub := after } d' →
      R (⟨key, forwarder, source⟩ :: rest) dict m c d') :
    (∀ source target c, P source target c (assign source target c)) ∧
      ∀ source dict m c, R source dict m c (assignEntries source dict m c) := by
  suffices all : _ ∧ (∀ name source owner slots c,
      Q source owner slots c (assignSlots name source owner slots c)) ∧ _ from ⟨all.1, all.2.2⟩
  refine assign.mutual_induct_unfolding P (fun _ source owner slots c d => Q source owner slots c d) R
    ?within ?mismatch ?nil ?short ?dictFails ?dict ?dictMismatch ?writeFails ?write ?done
    ?intoFails ?into ?unmade ?make
  case within =>
    intro _ _ _ _ _ _ _ _ _ _ _ _ ih
    exact within _ _ _ _ _ _ _ _ ih ..
  case mismatch =>
    intros
    exact mismatch ..
  case nil =>
    intros
    exact nil ..
  case short =>
    intros
    exact stop ..
  case dictFails =>
    -- the other slots stop with the error at once
    intro _ _ _ _ source owner _ _ _ slots _ _ _ _ hstart d _ e _ ih
    exact dict _ _ _ _ _ _ _ _ _ _ _ _ _ ⟨.error e, slots, d.context⟩ hstart ih (stop ..)
  case dict =>
    intro _ _ _ _ _ _ _ _ _ _ _ _ _ _ hstart _ _ _ _ ih ih'
    exact dict _ _ _ _ _ _ _ _ _ _ _ _ _ _ hstart ih ih'
  case dictMismatch =>
    intros
    exact stop ..
  case writeFails =>
    intro _ _ _ _ _ _ _ slots _ _ d e _
    exact write _ _ _ _ _ _ _ _ ⟨.error e, slots, d.context⟩ (stop ..)
  case write =>
    intro _ _ _ _ _ _ _ _ _ _ _ _ _ ih
    exact write _ _ _ _ _ _ _ _ _ ih
  case done =>
    intros
    exact done ..
  case intoFails =>
    intro key forwarder source rest dict m c ours found d next e failed ih
    refine into _ _ _ _ _ _ _ _ d _ found ?_ (halt _ _ _ _ e)
    -- an entry that may not be written refuses the copy
    unfold d
    split
    · exact ih
    · exact refuse ..
  case into =>
    intro key forwarder source rest dict m c ours found d next _ succeeded ih ih'
    refine into _ _ _ _ _ _ _ _ d _ found ?_ ih'
    unfold d
    split
    · exact ih
    · exact refuse ..
  case unmade =>
    intro _ _ _ _ _ _ _ found _ _ made d e failed ih
    exact unmade _ _ _ _ _ _ _ _ _ _ e found made ih
  case make =>
    intro _ _ _ _ _ _ _ found _ _ made d _ succeeded _ _ heard ih ih'
    exact make _ _ _ _ _ _ _ _ _ _ _ _ _ found made ih heard ih'

end SettingsForge.Settings
