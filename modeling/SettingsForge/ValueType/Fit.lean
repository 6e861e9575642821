import SettingsForge.ValueType.Basic

set_option autoImplicit false

/-! # Fit and coercion

`ValueType.fit` says whether a value belongs to a type as it is, belongs to it after a conversion, or
does not belong to it. `ValueType.coerce` does the conversion: integers widen to floats, and enum
members are made from their ordinal or their name. -/

namespace SettingsForge

/-- How well a value fits a type. -/
inductive Fit where
  | exact
  | converted
  deriving DecidableEq, Repr

namespace Fit

/-- The weaker of two fits. -/
def max : Fit → Fit → Fit
  | .exact, f => f
  | .converted, _ => .converted

/-- The weakest of the fits of items, none when an item does not fit. -/
def ofItems : List (Option Fit) → Option Fit
  | [] => some .exact
  | none :: _ => none
  | some f :: rest => (ofItems rest).map (max f)

end Fit

namespace ValueType

/-- How a value fits a type, if it does. Ordinal zero belongs to every enum. -/
def fit : ValueType → Value → Option Fit
  | .bool, .bool _ => some .exact
  | .int, .int _ => some .exact
  | .float, .float _ => some .exact
  | .float, .int _ => some .converted
  | .str, .str _ => some .exact
  | .enum e, .enum typeName ordinal =>
    if typeName = e.name ∧ (ordinal = 0 ∨ (e.nameOf? ordinal).isSome) then some .exact else none
  | .enum e, .int ordinal => (e.nameOf? ordinal).map fun _ => .converted
  | .enum e, .str member => (e.ordinalOf? member).map fun _ => .converted
  | .object _, .null => some .exact
  | .object o, .object typeName _ => if typeName = o.name then some .exact else none
  | .list item, .list items => Fit.ofItems (items.map fun v => item.fit v)
  | _, _ => none

/-- Convert a value to a type, if it fits. -/
def coerce : ValueType → Value → Option Value
  | .float, .int i => some (.float (Binary64.ofInt i.toInt))
  | .enum e, .int ordinal => (e.nameOf? ordinal).map fun _ => .enum e.name ordinal
  | .enum e, .str member => e.valueOf? member
  | .list item, .list items => (items.mapM fun v => item.coerce v).map .list
  | ty, v =>
    match ty.fit v with
    | some .exact => some v
    | _ => none

theorem fit_list (item : ValueType) (items : List Value) :
    fit (.list item) (.list items) = Fit.ofItems (items.map fun v => item.fit v) := by
  rw [fit]

theorem coerce_list (item : ValueType) (items : List Value) :
    coerce (.list item) (.list items) = (items.mapM fun v => item.coerce v).map .list := by
  rw [coerce]

end ValueType

end SettingsForge
