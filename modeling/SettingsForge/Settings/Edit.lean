import SettingsForge.Reconcile
import SettingsForge.Settings.Context

set_option autoImplicit false

/-! # Editing values and lists

A value is converted to the type of its property or item, or refused. An observable instance announces
each edit that changes something once, and does not store a value equal to the one it holds; a plain
one always stores. Instances of the reading kind refuse every edit. -/

namespace SettingsForge

/-! ## Lists -/

/-- An edit of a list. -/
inductive ListEdit where
  | push (value : Value)
  | insert (index : Nat) (value : Value)
  | remove (index : Nat)
  | clear
  /-- Bring the list to these items, see `reconcile`. -/
  | reconcile (target : List Value)

/-- What an edit of a list answers. -/
inductive ListAnswer where
  | edited
  | removed (value : Value)
  | reconciled (outcome : ReconcileOutcome)

/-- A list after an edit: whether it is a change, and what is written down about it. -/
structure ListRevision where
  items : List Value
  answer : ListAnswer
  changed : Bool
  journal : List JournalEntry := []

namespace ListRef

/-- A value as an item of the list. -/
def conform (list : ListRef) (value : Value) : Except SettingsError Value :=
  match list.item.coerce value with
  | some v => .ok v
  | none =>
    .error (.typeMismatch list.schema list.property list.item.name value.describe)

def outOfRange (list : ListRef) (index : Nat) (items : List Value) : SettingsError :=
  .indexOutOfRange list.property index items.length

/-- Bring a list to items that conform. -/
def reconciled (list : ListRef) (items target : List Value) : ListRevision :=
  let r := SettingsForge.reconcile Value.equals items target
  ⟨r.items, .reconciled r.outcome, r.outcome.changed,
    if r.outcome.changed then
      [.listReconciled list.property r.outcome.removed r.outcome.appended]
    else []⟩

/-- Edit a list. -/
def edit (list : ListRef) (items : List Value) : ListEdit → Except SettingsError ListRevision
  | .push value =>
    match list.conform value with
    | .ok v => .ok ⟨items ++ [v], .edited, true, []⟩
    | .error e => .error e
  | .insert index value =>
    if items.length < index then .error (list.outOfRange index items)
    else
      match list.conform value with
      | .ok v => .ok ⟨items.insertIdx index v, .edited, true, []⟩
      | .error e => .error e
  | .remove index =>
    match items[index]? with
    | some v => .ok ⟨items.eraseIdx index, .removed v, true, []⟩
    | none => .error (list.outOfRange index items)
  | .clear => .ok ⟨[], .edited, !items.isEmpty, []⟩
  | .reconcile target =>
    match target.mapM list.conform with
    | .ok conforming => .ok (list.reconciled items conforming)
    | .error e => .error e

/-- Edit the items of a list and tell the owner of a change. -/
def revise (list : ListRef) (items : List Value) (edit : ListEdit) (c : Context) :
    Done (List Value) ListAnswer :=
  match list.edit items edit with
  | .error e => ⟨.error e, items, c⟩
  | .ok revision =>
    let noted := c.note revision.journal
    ⟨.ok revision.answer, revision.items,
      if revision.changed then noted.tell list.binding else noted⟩

end ListRef

/-! ## Slots -/

namespace Owner

/-- Store a value of the slot's type; see above. -/
def store (owner : Owner) (property : String) (current value : Value) (c : Context) :
    Done Value Unit :=
  match owner.notifier with
  | none => ⟨.ok (), value, c⟩
  | some n =>
    if current.equals value then ⟨.ok (), current, c⟩
    else ⟨.ok (), value, c.announce (some n) property⟩

/-- Write a value to a slot: a scalar is stored, a list reconciled, a dictionary refuses. -/
def write (owner : Owner) (property : String) (content : Content) (value : Value) (c : Context) :
    Done Content Unit :=
  match content with
  | .scalar type current =>
    match type.coerce value with
    | some v => (owner.store property current v c).within (.scalar type)
    | none =>
      ⟨.error (.typeMismatch owner.schema property type.name value.describe), content, c⟩
  | .list list items =>
    match value with
    | .list target =>
      let d := list.revise items (.reconcile target) c
      ⟨d.answer.map fun _ => (), .list list d.subject, d.context⟩
    | other =>
      ⟨.error (.typeMismatch owner.schema property (ValueType.list list.item).name other.describe),
        content, c⟩
  | .dict .. =>
    ⟨.error (.propertyShapeMismatch owner.schema property "value" "dictionary"), content, c⟩

end Owner

/-! ## Instances -/

namespace Settings

/-- Refuse to change an instance of the reading kind. -/
def refuse {α : Type} (x : Settings) (target : String) (c : Context) : Done Settings α :=
  ⟨.error (.readOnlyViolation x.schema.name target), x,
    c.note [.writeRefused x.schema.name target]⟩

/-- Assign a property. -/
def set (x : Settings) (property : String) (value : Value) (c : Context) : Done Settings Unit :=
  match x.content property with
  | .error e => ⟨.error e, x, c⟩
  | .ok content =>
    if x.kind.isWritable then
      (x.owner.write property content value c).within (x.setContent property)
    else x.refuse property c

/-- Edit a list property. -/
def editList (x : Settings) (property : String) (edit : ListEdit) (c : Context) :
    Done Settings ListAnswer :=
  match x.list property with
  | .error e => ⟨.error e, x, c⟩
  | .ok (list, items) =>
    if x.kind.isWritable then
      (list.revise items edit c).within fun after => x.setContent property (.list list after)
    else x.refuse property c

end Settings

end SettingsForge
