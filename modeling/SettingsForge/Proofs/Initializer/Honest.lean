import SettingsForge.Proofs.Initializer.Calls

set_option autoImplicit false

/-! # Defaults of honest types

An object type is honest if its constructors and static methods make what they declare, perhaps up to
a conversion (`ObjectTypeOf.Honest`). Types are told apart by their names, so a method may declare an
enum that has members which the property's enum of that name lacks; where it does not
(`ValueType.Within`), what fits the method's type fits the property's. Where the method that is called
does not do so (`Initializer.KeepsEnums`), the first value of a property fits its type exactly, except
for what a method in place leaves in need of a conversion (`Initializer.defaults_fit_exactly`). -/

namespace SettingsForge

/-- An object type whose members do what they declare: constructors make null or objects of the type,
    returning methods make values that fit the type they declare, and methods in place make such values
    of such values. -/
structure ObjectTypeOf.Honest (o : ObjectType) : Prop where
  constructors : ∀ c ∈ o.constructors, ∀ args,
    c.build args = .null ∨ ∃ fields, c.build args = .object o.name fields
  returning : ∀ m ∈ o.statics, ∀ call, m.body = .returning call → ∀ args,
    ((m.targetIn o).fit (call args)).isSome = true
  inPlace : ∀ m ∈ o.statics, ∀ call, m.body = .inPlace call → ∀ current args,
    ((m.targetIn o).fit current).isSome = true →
      ((m.targetIn o).fit (call current args)).isSome = true

namespace EnumType

/-- Another enum has all member names and all ordinals of this one. -/
def Within (e f : EnumType) : Prop :=
  ∀ m ∈ e.members, (f.ordinalOf? m.1).isSome = true ∧ (f.nameOf? m.2).isSome = true

theorem Within.nameOf? {e f : EnumType} (h : e.Within f) {ordinal : Int64}
    (own : (e.nameOf? ordinal).isSome = true) : (f.nameOf? ordinal).isSome = true := by
  rw [EnumType.nameOf?, Option.isSome_map, List.find?_isSome] at own
  obtain ⟨m, mem, at_ordinal⟩ := own
  exact beq_iff_eq.1 at_ordinal ▸ (h m mem).2

theorem Within.ordinalOf? {e f : EnumType} (h : e.Within f) {member : String}
    (own : (e.ordinalOf? member).isSome = true) : (f.ordinalOf? member).isSome = true := by
  rw [EnumType.ordinalOf?, Option.isSome_map, List.find?_isSome] at own
  obtain ⟨m, mem, named⟩ := own
  exact beq_iff_eq.1 named ▸ (h m mem).1

end EnumType

namespace ValueType

/-- Wherever both types have an enum, that of the second one has the members of that of the first. -/
def Within : ValueType → ValueType → Prop
  | .enum e, .enum f => e.Within f
  | .list item, .list other => item.Within other
  | _, _ => True

/-- Types that count as the same have one zero. -/
theorem zero_eq_of_same {made type : ValueType} (same : made.same type = true) :
    made.zero = type.zero := by
  cases made <;> cases type <;> simp_all [ValueType.same, zero]

/-- What fits a type fits another one that counts as the same and has its enums within. -/
theorem isSome_fit_of_same : (made : ValueType) → {type : ValueType} → made.same type = true →
    made.Within type → {v : Value} → (made.fit v).isSome = true → (type.fit v).isSome = true
  | .list item, type, same, within, v, fits => by
    cases type with
    | list other =>
        cases v with
        | list items =>
            rw [fit_list, Fit.isSome_ofItems, List.forall_mem_map] at fits ⊢
            exact fun v mem => isSome_fit_of_same item same within (fits v mem)
        | _ => simp [fit] at fits
    | _ => simp [ValueType.same] at same
  | .enum e, type, same, within, v, fits => by
    cases type with
    | enum f =>
        have same : e.name = f.name := beq_iff_eq.1 same
        have within : e.Within f := within
        cases v with
        | int ordinal =>
            rw [fit, Option.isSome_map] at fits ⊢
            exact within.nameOf? fits
        | str member =>
            rw [fit, Option.isSome_map] at fits ⊢
            exact within.ordinalOf? fits
        | enum typeName ordinal =>
            rw [fit] at fits ⊢
            split at fits
            · next member =>
              rw [if_pos ⟨member.1.trans same, member.2.imp_right within.nameOf?⟩]
              rfl
            · cases fits
        | _ => simp [fit] at fits
    | _ => simp [ValueType.same] at same
  | .object o, type, same, _, v, fits => by
    cases type with
    | object p =>
        have same : o.name = p.name := beq_iff_eq.1 same
        cases v with
        | object typeName fields => simpa only [fit, same] using fits
        | null => rfl
        | _ => simp [fit] at fits
    | _ => simp [ValueType.same] at same
  | .bool, type, same, _, v, fits | .int, type, same, _, v, fits | .float, type, same, _, v, fits
  | .str, type, same, _, v, fits => by
    cases type <;> simp only [ValueType.same, Bool.false_eq_true] at same
    exact fits

/-- What fits is converted to what fits exactly. -/
theorem fit_conform {type : ValueType} {v : Value} (fits : (type.fit v).isSome = true) :
    type.fit (type.conform v) = some .exact := by
  unfold conform
  split
  · rw [← isSome_coerce] at fits
    obtain ⟨w, converted⟩ := Option.isSome_iff_exists.1 fits
    rw [converted]
    exact type.exact_of_coerce converted
  · next only =>
    obtain ⟨fit, found⟩ := Option.isSome_iff_exists.1 fits
    cases fit with
    | exact => exact found
    | converted => exact absurd found only

end ValueType

namespace Initializer

variable {type : ValueType} {catalog : Catalog} {initializer : Initializer}

/-- The object types whose members a default of a property may call: those in the catalog and the
    property's own. -/
def Callable (type : ValueType) (catalog : Catalog) (host : ObjectType) : Prop :=
  (∃ typeName, catalog.find? typeName = some host) ∨ type = .object host

theorem Named.callable {typeName : String} {host : ObjectType}
    (named : Named type catalog typeName host) : Callable type catalog host := by
  rcases named with found | ⟨-, own, -⟩
  · exact .inl ⟨typeName, found⟩
  · exact .inr own

/-- The static method that a strategy calls: the best of those that compete for the call. -/
inductive Calls (type : ValueType) (catalog : Catalog) :
    DefaultStrategy → ObjectType → StaticMethod → Prop
  | best {typeName method : String} {args : List Value} {host : ObjectType}
      {methods : List StaticMethod} {i : Nat} {m : StaticMethod} :
      Named type catalog typeName host → Competes type (host.candidates type method) args methods →
      methods[i]? = some m → Best (methods.map StaticMethodOf.params) args i →
      Calls type catalog (.staticCall typeName method args) host m

/-- The method that is called is declared by a type that may be called, and makes or changes values of
    what counts as the property's type. -/
theorem Calls.declared {strategy : DefaultStrategy} {host : ObjectType} {m : StaticMethod}
    (calls : Calls type catalog strategy host m) :
    Callable type catalog host ∧ m ∈ host.statics ∧ (m.targetIn host).same type = true := by
  cases calls with
  | @best _ method _ _ methods _ _ named competes there =>
      have candidate : m ∈ host.candidates type method := by
        have mem := List.mem_of_getElem? there
        cases competes <;> exact (List.mem_filter.1 mem).1
      obtain ⟨declared, matching⟩ := List.mem_filter.1 candidate
      rw [Bool.and_eq_true] at matching
      exact ⟨named.callable, declared, matching.2⟩

/-- The static method that a strategy calls, if it calls one, declares no enum with members that the
    property's enum of that name lacks. -/
def KeepsEnums (type : ValueType) (catalog : Catalog) (strategy : DefaultStrategy) : Prop :=
  ∀ host m, Calls type catalog strategy host m → (m.targetIn host).Within type

/-- A strategy is bound to a constructor of a type with the name of the property's, or to the method
    that it calls. -/
theorem Considers.member_cases {strategy : DefaultStrategy} {members : List Member} {member : Member}
    {args : List Value} {i : Nat} (considered : Considers type catalog strategy members)
    (call : strategy.args? = some args) (there : members[i]? = some member)
    (best : Best (members.map Member.params) args i) :
    (∃ host c own, Callable type catalog host ∧ member = .constructor c ∧ c ∈ host.constructors ∧
        type = .object own ∧ own.name = host.name) ∨
      ∃ host m, member = .method m ∧ Calls type catalog strategy host m := by
  cases considered with
  | @constructors _ _ target own named _ type_eq same =>
      obtain ⟨c, mem, rfl⟩ := List.mem_map.1 (List.mem_of_getElem? there)
      exact .inl ⟨target, c, own, named.callable, rfl, mem, type_eq, same⟩
  | @statics _ method _ host methods named competes =>
      cases call
      rw [List.getElem?_map, Option.map_eq_some_iff] at there
      obtain ⟨m, there, rfl⟩ := there
      rw [List.map_map] at best
      exact .inr ⟨host, m, rfl, .best named competes there best⟩

/-- What an honest member makes fits the property's type exactly, unless it works in place and leaves a
    value that has to be converted. -/
theorem fit_yield {strategy : DefaultStrategy} {members : List Member} {member : Member}
    {args passed : List Value} {i : Nat} (honest : ∀ host, Callable type catalog host → host.Honest)
    (keeps : KeepsEnums type catalog strategy) (considered : Considers type catalog strategy members)
    (call : strategy.args? = some args) (there : members[i]? = some member)
    (best : Best (members.map Member.params) args i)
    (settled : ∀ call, member.initializer passed = .staticInPlace call passed →
      type.fit (call type.zero passed) ≠ some .converted) :
    type.fit (member.yield type passed) = some .exact := by
  obtain ⟨host, c, own, callable, rfl, there, rfl, same⟩ | ⟨host, m, rfl, calls⟩ :=
    considered.member_cases call there best
  · apply ValueType.fit_conform
    rcases (honest host callable).constructors c there passed with null | ⟨fields, object⟩
    · rw [null]
      rfl
    · rw [object, ValueType.fit, if_pos same.symm]
      rfl
  · obtain ⟨callable, declared, same⟩ := calls.declared
    have fits : ∀ {v}, ((m.targetIn host).fit v).isSome = true → (type.fit v).isSome = true :=
      fun fits => ValueType.isSome_fit_of_same _ same (keeps host m calls) fits
    rw [Member.yield]
    split
    · next call body =>
      exact ValueType.fit_conform
        (fits ((honest host callable).returning m declared call body passed))
    · next call body =>
      have zero : ((m.targetIn host).fit type.zero).isSome = true := by
        rw [← ValueType.zero_eq_of_same same, ValueType.fit_zero]
        rfl
      have left := fits
        ((honest host callable).inPlace m declared call body type.zero passed zero)
      have unconverted := settled call (by rw [Member.initializer, body])
      obtain ⟨fit, found⟩ := Option.isSome_iff_exists.1 left
      cases fit with
      | exact => exact found
      | converted => exact absurd found unconverted

/-- A strategy that may be used is used for the property's type. -/
theorem declared?_eq_ok {schema : String} {p : Property} (declared : p.type = .value type)
    {found : Option (ValueType × DefaultStrategy)} (answer : declared? schema p = .ok found) :
    found = none ∨ ∃ strategy ∈ p.defaults, found = some (type, strategy) := by
  cases found with
  | none => exact .inl rfl
  | some used =>
      obtain ⟨type', strategy⟩ := used
      obtain ⟨declared', only, -⟩ := declared?_eq_some_iff.1 answer
      cases declared.symm.trans declared'
      exact .inr ⟨strategy, only ▸ List.mem_singleton_self _, rfl⟩

/-- Take a property that holds values and an initializer that is found for it. Let the types whose
members may be called be honest, and let the static method that is called, if one is, declare no enum
with members that the property's enum of that name lacks. Unless the initializer calls a method in place
that leaves a value in need of a conversion, what it produces fits the property's type exactly. -/
theorem defaults_fit_exactly (catalog : Catalog) (schema : String) {p : Property}
    (declared : p.type = .value type)
    (honest : ∀ host, Callable type catalog host → host.Honest)
    (keeps : ∀ strategy ∈ p.defaults, KeepsEnums type catalog strategy)
    (resolved : resolve schema p catalog = .ok initializer)
    (settled : ∀ call args, initializer = .staticInPlace call args →
      type.fit (call type.zero args) ≠ some .converted) :
    type.fit (initializer.produce type) = some .exact := by
  unfold resolve at resolved
  split at resolved
  · cases resolved
  · cases resolved
    exact type.fit_zero
  · next type' strategy found =>
    rcases declared?_eq_ok declared found with none | ⟨_, listed, same⟩
    · cases none
    cases same
    cases call : strategy.args? with
    | none =>
        cases strategy with
        | constant value =>
            rw [ofStrategy] at resolved
            split at resolved
            · next converted =>
              cases resolved
              exact type.exact_of_coerce converted
            · cases resolved
        | construct => cases call
        | staticCall => cases call
    | some args =>
        obtain ⟨members, considered, i, member, there, best, rfl⟩ :=
          (ofStrategy_eq_ok_iff call).1 resolved
        rw [member.produce_initializer]
        exact fit_yield honest (keeps strategy listed) considered call there best
          fun call made => settled call _ made

/-- In a catalog of one type, a property of no object type may only call that one. -/
theorem Callable.eq_of_single {o host : ObjectType} (plain : ∀ own, type ≠ .object own)
    (callable : Callable type (.ofList [o]) host) : host = o := by
  rcases callable with ⟨typeName, found⟩ | own
  · have single : Catalog.ofList [o] = Catalog.empty.register o := rfl
    rw [single] at found
    by_cases same : typeName = o.name
    · rw [same, Catalog.find?_register_self] at found
      exact (Option.some.inj found).symm
    · rw [Catalog.find?_register_of_ne _ same] at found
      cases found
  · exact absurd own (plain host)

/-- A type whose method makes a list of an integer and a float. -/
def mixer : ObjectType where
  name := "Mixer"
  statics := [⟨"levels", [], some (.list .float), .returning fun _ => .list [.int 1, .float .zero]⟩]

theorem honest_mixer : mixer.Honest where
  constructors c mem := by cases mem
  returning m mem call body args := by
    cases List.mem_singleton.1 mem
    cases body
    rfl
  inPlace m mem call body := by
    cases List.mem_singleton.1 mem
    cases body

/-- The levels of a property are floats. -/
theorem mixes_levels_of_floats :
    ∃ initializer : Initializer,
      resolve "Track" ⟨"levels", .value (.list .float), [.staticCall "Mixer" "levels" []]⟩
        (.ofList [mixer]) = .ok initializer ∧
      initializer.produce (.list .float) = .list [.float (Binary64.ofInt 1), .float .zero] ∧
      (ValueType.list .float).fit (initializer.produce (.list .float)) = some .exact := by
  refine ⟨_, rfl, rfl, ?_⟩
  have only : ∀ host, Callable (.list .float) (.ofList [mixer]) host → host = mixer :=
    fun host callable => callable.eq_of_single (by rintro own ⟨⟩)
  refine defaults_fit_exactly (.ofList [mixer]) "Track"
    (p := ⟨"levels", .value (.list .float), [.staticCall "Mixer" "levels" []]⟩) rfl ?_ ?_ rfl ?_
  · rintro host callable
    exact only host callable ▸ honest_mixer
  · rintro strategy listed
    cases List.mem_singleton.1 listed
    rintro host m calls
    obtain ⟨callable, declared, -⟩ := calls.declared
    cases only host callable
    cases List.mem_singleton.1 declared
    exact trivial
  · rintro call args ⟨⟩

/-- A type with a method for an enum of two colors and a method that leaves an integer for a float. -/
def painter : ObjectType where
  name := "Painter"
  statics := [⟨"pick", [], some (.enum ⟨"Color", [("black", 0), ("red", 1)]⟩),
      .returning fun _ => .enum "Color" 1⟩,
    ⟨"thicken", [], some .float, .inPlace fun _ _ => .int 5⟩]

theorem honest_painter : painter.Honest where
  constructors c mem := by cases mem
  returning m mem call body args := by
    rcases List.mem_cons.1 mem with rfl | mem
    · cases body
      rfl
    · cases List.mem_singleton.1 mem
      cases body
  inPlace m mem call body current args _ := by
    rcases List.mem_cons.1 mem with rfl | mem
    · cases body
    · cases List.mem_singleton.1 mem
      cases body
      rfl

/-- Honest methods alone do not do: a property of an enum that lacks one of the colors gets a value
    that does not fit, and a float gets a value that would have to be converted. -/
theorem paints_with_a_color_that_is_missing :
    let tint : ValueType := .enum ⟨"Color", [("black", 0)]⟩
    let catalog : Catalog := .ofList [painter]
    (∀ host, Callable tint catalog host → host.Honest) ∧
      (∃ initializer : Initializer,
        resolve "Paint" ⟨"tint", .value tint, [.staticCall "Painter" "pick" []]⟩ catalog =
          .ok initializer ∧
        tint.fit (initializer.produce tint) = none) ∧
      (∀ host, Callable .float catalog host → host.Honest) ∧
      ∃ initializer : Initializer,
        resolve "Paint" ⟨"width", .value .float, [.staticCall "Painter" "thicken" []]⟩ catalog =
          .ok initializer ∧
        ValueType.fit .float (initializer.produce .float) = some .converted := by
  refine ⟨fun host callable => ?_, ⟨_, rfl, rfl⟩, fun host callable => ?_, ⟨_, rfl, rfl⟩⟩
  · exact callable.eq_of_single (by rintro own ⟨⟩) ▸ honest_painter
  · exact callable.eq_of_single (by rintro own ⟨⟩) ▸ honest_painter

end Initializer

end SettingsForge
