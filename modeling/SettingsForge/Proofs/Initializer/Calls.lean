import SettingsForge.Proofs.Schema.Registry
import SettingsForge.Proofs.ValueType.Coercion
import SettingsForge.Proofs.ValueType.Overload
import SettingsForge.Settings.Make

set_option autoImplicit false

/-! # What default strategies call

A strategy that calls something names an object type and considers some of its members (`Considers`):
its constructors, if the property is of this very type and the type is not abstract, or its static
methods of a name that make or change values of the property's type. It is bound to a member just when
that one is the best for its arguments (`ofStrategy_eq_ok_iff`). The member is called with as many
arguments as it has parameters, each of its parameter's own type (`exact_convertArgs`), whenever an
instance is made (`calls_resolve_to_the_best_member`). -/

namespace SettingsForge

/-- The arguments of a call. -/
def DefaultStrategy.args? : DefaultStrategy → Option (List Value)
  | .constant _ => none
  | .construct _ args => some args
  | .staticCall _ _ args => some args

/-- The type that a static method of an object type makes or changes. -/
def StaticMethodOf.targetIn (m : StaticMethod) (host : ObjectType) : ValueType :=
  m.valueType.getD (.object host)

/-- The static methods of a name that make or change values of a type. -/
def ObjectTypeOf.candidates (host : ObjectType) (type : ValueType) (method : String) :
    List StaticMethod :=
  host.statics.filter fun m => m.name == method && (m.targetIn host).same type

/-- The first content of an owner's slot for a property of a type. A list property whose value is no
    list starts empty. -/
def ContentOf.first (owner : Owner) (property : String) : ValueType → Value → Content
  | .list item, value =>
    .list ⟨owner.schema, property, item, owner.binding property⟩ (value.items?.getD [])
  | type, value => .scalar type value

theorem SlotPlan.content_value (name : String) (type : ValueType) (initializer : Initializer)
    (engine : EngineId) (owner : Owner) :
    SlotPlan.content ⟨name, .value type initializer⟩ engine owner =
      .first owner name type (initializer.produce type) := by
  cases type <;> rfl

namespace Initializer

/-! ## Members and what is considered of them -/

/-- What a strategy may call. -/
inductive Member where
  | constructor (c : Constructor)
  | method (m : StaticMethod)

namespace Member

def params : Member → List ValueType
  | .constructor c => c.params
  | .method m => m.params

/-- The initializer that calls a member with arguments. -/
def initializer (args : List Value) : Member → Initializer
  | .constructor c => .construct c.build args
  | .method m =>
    match m.body with
    | .returning call => .staticReturning call args
    | .inPlace call => .staticInPlace call args

/-- The value that a property of a type gets from a call: what the member makes, converted to the type
    if that has to be done, or what it leaves of the zero of the type. -/
def yield (type : ValueType) (args : List Value) : Member → Value
  | .constructor c => type.conform (c.build args)
  | .method m =>
    match m.body with
    | .returning call => type.conform (call args)
    | .inPlace call => call type.zero args

theorem produce_initializer (member : Member) (type : ValueType) (args : List Value) :
    (member.initializer args).produce type = member.yield type args := by
  cases member with
  | constructor c => rfl
  | method m =>
      simp only [Member.initializer, yield]
      split <;> rfl

end Member

/-- The type of a name: the one in the catalog, or else the property's own object type. -/
inductive Named (type : ValueType) (catalog : Catalog) (typeName : String) : ObjectType → Prop
  | known {o : ObjectType} : catalog.find? typeName = some o → Named type catalog typeName o
  | own {o : ObjectType} : catalog.find? typeName = none → type = .object o → o.name = typeName →
      Named type catalog typeName o

/-- Of the candidates, those that compete for a call: those of the form that is preferred for the type,
    in place for lists and returning for others, if one of them accepts the arguments, and otherwise
    those of the other form. -/
inductive Competes (type : ValueType) (candidates : List StaticMethod) (args : List Value) :
    List StaticMethod → Prop
  | preferred {m : StaticMethod} :
      m ∈ candidates → m.isInPlace = type.isCollection → Accepts m.params args →
      Competes type candidates args (candidates.filter fun m => m.isInPlace == type.isCollection)
  | other :
      (∀ m ∈ candidates, m.isInPlace = type.isCollection → ¬ Accepts m.params args) →
      Competes type candidates args (candidates.filter fun m => m.isInPlace != type.isCollection)

/-- The members that a strategy considers for a property of a type. -/
inductive Considers (type : ValueType) (catalog : Catalog) : DefaultStrategy → List Member → Prop
  | constructors {typeName : String} {args : List Value} {target own : ObjectType} :
      Named type catalog typeName target → target.isAbstract = false →
      type = .object own → own.name = target.name →
      Considers type catalog (.construct typeName args) (target.constructors.map .constructor)
  | statics {typeName method : String} {args : List Value} {host : ObjectType}
      {methods : List StaticMethod} :
      Named type catalog typeName host → Competes type (host.candidates type method) args methods →
      Considers type catalog (.staticCall typeName method args) (methods.map .method)

variable {type : ValueType} {typeName method : String} {args : List Value} {catalog : Catalog}
  {initializer : Initializer}

/-! ## Looking up -/

theorem lookup?_eq_some_iff {o : ObjectType} :
    lookup? type typeName catalog = some o ↔ Named type catalog typeName o := by
  unfold lookup?
  constructor
  · intro h
    split at h
    · next found =>
      cases h
      exact .known found
    · next missing =>
      split at h
      · next own =>
        split at h
        · next same =>
          cases h
          exact .own missing rfl (beq_iff_eq.1 same)
        · cases h
      · cases h
  · rintro (found | ⟨missing, rfl, rfl⟩)
    · rw [found]
    · rw [missing]
      simp

theorem isObjectNamed_iff {name : String} :
    isObjectNamed type name = true ↔ ∃ own, type = .object own ∧ own.name = name := by
  cases type <;> simp [isObjectNamed]

theorem candidates_eq (host : ObjectType) (type : ValueType) (method : String) :
    (host.staticsNamed method).filter (makes type host.name) = host.candidates type method := by
  rw [ObjectTypeOf.staticsNamed, List.filter_filter, ObjectTypeOf.candidates]
  refine List.filter_congr fun m _ => ?_
  rw [Bool.and_comm, makes, StaticMethodOf.targetIn]
  congr 1
  cases m.valueType with
  | some made => rfl
  | none => cases type <;> simp [isObjectNamed, ValueType.same, eq_comm]

/-! ## Choosing a member -/

theorem pick_eq_ok_iff {candidates : List StaticMethod} {m : StaticMethod} :
    pick candidates args = .ok m ↔
      ∃ i, candidates[i]? = some m ∧ Best (candidates.map StaticMethodOf.params) args i := by
  unfold pick
  constructor
  · intro picked
    split at picked
    · cases picked
    · next i chosen =>
      split at picked
      · next there =>
        cases picked
        exact ⟨i, there, selectOverload_eq_ok_iff.1 chosen⟩
      · cases picked
  · rintro ⟨i, there, best⟩
    rw [selectOverload_eq_ok_iff.2 best]
    dsimp only
    rw [there]

theorem pick_eq_noMatch_iff {candidates : List StaticMethod} :
    pick candidates args = .error .noMatch ↔ ∀ m ∈ candidates, ¬ Accepts m.params args := by
  rw [← List.forall_mem_map (P := fun params => ¬ Accepts params args),
    ← selectOverload_eq_noMatch_iff]
  unfold pick
  constructor
  · intro refused
    split at refused
    · next chosen =>
      cases refused
      exact chosen
    · next i chosen =>
      obtain ⟨m, there, -⟩ := exists_of_best (selectOverload_eq_ok_iff.1 chosen)
      rw [there] at refused
      cases refused
  · intro chosen
    rw [chosen]

/-- The other form is asked only if no candidate of the preferred one accepts the arguments. -/
theorem pickMethod_cases (type : ValueType) (candidates : List StaticMethod) (args : List Value) :
    let preferred := pick (candidates.filter fun m => m.isInPlace == type.isCollection) args
    preferred = .error .noMatch ∧ pickMethod type candidates args =
        pick (candidates.filter fun m => m.isInPlace != type.isCollection) args ∨
      preferred ≠ .error .noMatch ∧ pickMethod type candidates args = preferred := by
  unfold pickMethod
  cases type.isCollection <;> simp only [beq_true, beq_false, Bool.bne_true,
    Bool.bne_false, Bool.false_eq_true, if_true, if_false]
  all_goals
    split
    · next refused => exact .inl ⟨refused, rfl⟩
    · next matched => exact .inr ⟨matched, rfl⟩

theorem pickMethod_eq_ok_iff {candidates : List StaticMethod} {m : StaticMethod} :
    pickMethod type candidates args = .ok m ↔
      ∃ methods, Competes type candidates args methods ∧
        ∃ i, methods[i]? = some m ∧ Best (methods.map StaticMethodOf.params) args i := by
  have refused_iff : pick (candidates.filter fun m => m.isInPlace == type.isCollection) args =
      .error .noMatch ↔
        ∀ m ∈ candidates, m.isInPlace = type.isCollection → ¬ Accepts m.params args := by
    simp only [pick_eq_noMatch_iff, List.mem_filter, beq_iff_eq, and_imp]
  rcases pickMethod_cases type candidates args with ⟨refused, other⟩ | ⟨matched, preferred⟩
  · rw [refused_iff] at refused
    rw [other, pick_eq_ok_iff]
    constructor
    · rintro ⟨i, chosen⟩
      exact ⟨_, .other refused, i, chosen⟩
    · rintro ⟨_, ⟨mem, form, accepts⟩ | _, chosen⟩
      · exact absurd accepts (refused _ mem form)
      · exact chosen
  · rw [Ne, refused_iff] at matched
    rw [preferred, pick_eq_ok_iff]
    constructor
    · rintro ⟨i, chosen⟩
      push Not at matched
      obtain ⟨m', mem, form, accepts⟩ := matched
      exact ⟨_, .preferred mem form accepts, i, chosen⟩
    · rintro ⟨_, _ | refused, chosen⟩
      · exact chosen
      · exact absurd refused matched

/-! ## Binding -/

theorem ofConstructor_eq_ok_iff :
    ofConstructor type typeName args catalog = .ok initializer ↔
      ∃ target own, Named type catalog typeName target ∧ target.isAbstract = false ∧
        type = .object own ∧ own.name = target.name ∧
        ∃ i c, target.constructors[i]? = some c ∧
          Best (target.constructors.map ConstructorOf.params) args i ∧
          initializer = .construct c.build (convertArgs c.params args) := by
  unfold ofConstructor
  constructor
  · intro bound
    dsimp only at bound
    split at bound
    · cases bound
    · next target found =>
      split_ifs at bound with isAbstract other
      rw [Bool.not_eq_true', Bool.not_eq_false, isObjectNamed_iff] at other
      obtain ⟨own, type_eq, same⟩ := other
      split at bound
      · cases bound
      · next i chosen =>
        split at bound
        · next c there =>
          cases bound
          exact ⟨target, own, lookup?_eq_some_iff.1 found, Bool.eq_false_iff.2 isAbstract, type_eq,
            same, i, c, there, selectOverload_eq_ok_iff.1 chosen, rfl⟩
        · cases bound
  · rintro ⟨target, own, named, concrete, type_eq, same, i, c, there, best, rfl⟩
    have object : isObjectNamed type target.name = true := isObjectNamed_iff.2 ⟨own, type_eq, same⟩
    rw [lookup?_eq_some_iff.2 named]
    simp [concrete, object, selectOverload_eq_ok_iff.2 best, there]

theorem ofStatic_eq_ok_iff :
    ofStatic type typeName method args catalog = .ok initializer ↔
      ∃ host, Named type catalog typeName host ∧
        ∃ methods, Competes type (host.candidates type method) args methods ∧
          ∃ i m, methods[i]? = some m ∧ Best (methods.map StaticMethodOf.params) args i ∧
            initializer = (Member.method m).initializer (convertArgs m.params args) := by
  unfold ofStatic
  dsimp only
  constructor
  · intro bound
    split at bound
    · cases bound
    · next host found =>
      rw [candidates_eq] at bound
      split at bound
      · cases bound
      · next m picked =>
        obtain ⟨methods, competes, i, there, best⟩ := pickMethod_eq_ok_iff.1 picked
        refine ⟨host, lookup?_eq_some_iff.1 found, methods, competes, i, m, there, best, ?_⟩
        rw [Member.initializer]
        cases body : m.body <;> rw [body] at bound <;> exact (Except.ok.inj bound).symm
  · rintro ⟨host, named, methods, competes, i, m, there, best, rfl⟩
    rw [lookup?_eq_some_iff.2 named]
    dsimp only
    rw [candidates_eq, pickMethod_eq_ok_iff.2 ⟨methods, competes, i, there, best⟩, Member.initializer]
    dsimp only
    cases m.body <;> rfl

/-- A call is bound to a member just when that is the best of those that are considered. -/
theorem ofStrategy_eq_ok_iff {schema property : String} {strategy : DefaultStrategy}
    (call : strategy.args? = some args) :
    ofStrategy schema property type catalog strategy = .ok initializer ↔
      ∃ members, Considers type catalog strategy members ∧
        ∃ i m, members[i]? = some m ∧ Best (members.map Member.params) args i ∧
          initializer = m.initializer (convertArgs m.params args) := by
  cases strategy with
  | constant value => cases call
  | construct typeName args =>
      cases call
      rw [ofStrategy, ofConstructor_eq_ok_iff]
      constructor
      · rintro ⟨target, own, named, concrete, type_eq, same, i, c, there, best, rfl⟩
        refine ⟨_, .constructors named concrete type_eq same, i, .constructor c, ?_, ?_, rfl⟩
        · rw [List.getElem?_map, there, Option.map_some]
        · rwa [List.map_map]
      · rintro ⟨_, ⟨named, concrete, type_eq, same⟩, i, _, there, best, rfl⟩
        rw [List.getElem?_map, Option.map_eq_some_iff] at there
        obtain ⟨c, there, rfl⟩ := there
        rw [List.map_map] at best
        exact ⟨_, _, named, concrete, type_eq, same, i, c, there, best, rfl⟩
  | staticCall typeName method args =>
      cases call
      rw [ofStrategy, ofStatic_eq_ok_iff]
      constructor
      · rintro ⟨host, named, methods, competes, i, m, there, best, rfl⟩
        refine ⟨_, .statics named competes, i, .method m, ?_, ?_, rfl⟩
        · rw [List.getElem?_map, there, Option.map_some]
        · rwa [List.map_map]
      · rintro ⟨_, _ | ⟨named, competes⟩, i, _, there, best, rfl⟩
        rw [List.getElem?_map, Option.map_eq_some_iff] at there
        obtain ⟨m, there, rfl⟩ := there
        rw [List.map_map] at best
        exact ⟨_, named, _, competes, i, m, there, best, rfl⟩

/-! ## The arguments that are passed -/

/-- Arguments that are accepted are passed as their parameters' types represent them. -/
theorem coerced_convertArgs {params : List ValueType} (accepts : Accepts params args) :
    List.Forall₂ (fun pair passed => pair.1.coerce pair.2 = some passed) (params.zip args)
      (convertArgs params args) := by
  unfold Accepts at accepts
  induction accepts with
  | nil => exact .nil
  | @cons p a params args fits _ ih =>
      refine .cons ?_ ih
      rw [← ValueType.isSome_coerce] at fits
      obtain ⟨passed, converted⟩ := Option.isSome_iff_exists.1 fits
      rw [converted, Option.getD_some]

/-- There are as many of them as parameters, and each fits exactly. -/
theorem exact_convertArgs {params : List ValueType} (accepts : Accepts params args) :
    List.Forall₂ (fun p passed => p.fit passed = some .exact) params (convertArgs params args) := by
  unfold Accepts at accepts
  induction accepts with
  | nil => exact .nil
  | @cons p a params args fits _ ih =>
      refine .cons ?_ ih
      rw [← ValueType.isSome_coerce] at fits
      obtain ⟨passed, converted⟩ := Option.isSome_iff_exists.1 fits
      rw [converted, Option.getD_some]
      exact ValueType.exact_of_coerce p converted

/-! ## Properties -/

/-- The strategy that may be used is the only one of a property that holds values, though no list of an
    abstract type. -/
theorem declared?_eq_some_iff {schema : String} {p : Property} {strategy : DefaultStrategy} :
    declared? schema p = .ok (some (type, strategy)) ↔
      p.type = .value type ∧ p.defaults = [strategy] ∧
        ∀ item, type = .list (.object item) → item.isAbstract = false := by
  constructor
  · intro h
    unfold declared? at h
    split at h
    · cases h
    · next single =>
      split at h
      · split at h <;> cases h
      · next type' declared =>
        -- in either case it is the first one
        obtain ⟨first, concrete⟩ : p.defaults.head?.map (fun strategy => (type', strategy)) =
            some (type, strategy) ∧ ∀ item, type' = .list (.object item) → item.isAbstract = false := by
          split at h
          · next o is_item =>
            split at h
            · cases h
            · next concrete =>
              refine ⟨Except.ok.inj h, ?_⟩
              rintro item rfl
              cases is_item
              simpa using concrete
          · next other =>
            refine ⟨Except.ok.inj h, ?_⟩
            rintro item rfl
            exact absurd rfl (other item)
        obtain ⟨_, first, ⟨⟩⟩ := Option.map_eq_some_iff.1 first
        obtain ⟨rest, split⟩ := List.head?_eq_some_iff.1 first
        have none : rest = [] := by
          rw [split, List.length_cons] at single
          exact List.length_eq_zero_iff.1 (by omega)
        exact ⟨declared, none ▸ split, concrete⟩
  · rintro ⟨declared, only, concrete⟩
    unfold declared?
    rw [only, declared, if_neg (by simp)]
    dsimp only
    split
    · next item is_item =>
      have list : type = .list (.object item) := by
        cases type <;> cases is_item
        rfl
      rw [concrete item list]
      rfl
    · rfl

/-- The only strategy of a property is the one that is bound. -/
theorem resolve_eq_ofStrategy (catalog : Catalog) (schema : String) {p : Property}
    {strategy : DefaultStrategy} (declared : p.type = .value type)
    (concrete : ∀ item, type = .list (.object item) → item.isAbstract = false)
    (only : p.defaults = [strategy]) :
    resolve schema p catalog = ofStrategy schema p.name type catalog strategy := by
  rw [resolve, declared?_eq_some_iff.2 ⟨declared, only, concrete⟩]

/-- Without a default the zero of the type is left. -/
theorem eq_zero_of_no_defaults {schema : String} {p : Property} (none : p.defaults = [])
    (resolved : resolve schema p catalog = .ok initializer) : initializer = .zero := by
  unfold resolve at resolved
  split at resolved
  · cases resolved
  · cases resolved
    rfl
  · next type strategy found =>
    obtain ⟨-, only, -⟩ := declared?_eq_some_iff.1 found
    rw [none] at only
    cases only

/-- In a new instance the slot of a property holds what the property's initializer produces. -/
theorem first_mem_slots_make {s : Schema} {p : Property} {blueprint : Blueprint}
    (mem : p ∈ s.properties) (declared : p.type = .value type)
    (resolved : resolve s.name p catalog = .ok initializer)
    (made : (s.resolve catalog).blueprint = .ok blueprint) (engine : EngineId) (kind : Kind)
    (hub : Hub) :
    ⟨p.name, .first (blueprint.make engine kind hub).1.owner p.name type
      (initializer.produce type)⟩ ∈ (blueprint.make engine kind hub).1.slots := by
  obtain ⟨-, plans⟩ := Blueprint.plans_of_resolve made
  obtain ⟨plan, planned, fits⟩ := exists_right_of_forall₂ plans mem
  rw [Blueprint.slots_make]
  refine List.mem_map.2 ⟨plan, planned, ?_⟩
  cases fits with
  | value resolved' =>
      cases declared
      cases resolved'.symm.trans resolved
      rw [SlotPlan.slot, SlotPlan.content_value]
  | entries => cases declared

/-- Take a property that holds values, though no lists of an abstract object type, and that declares a
call as its only default. An initializer is found for it just when the call names a type some of whose
members may be considered, and just one of these accepts the arguments with the fewest conversions. The
initializer calls that member. The arguments it passes are those of the call, as many as the member has
parameters, each converted to its parameter's type, which it then fits exactly. And this is what is
called for the property in every new instance of every schema that has it. -/
theorem calls_resolve_to_the_best_member (catalog : Catalog) (schema : String) {p : Property}
    {strategy : DefaultStrategy} (declared : p.type = .value type)
    (concrete : ∀ item, type = .list (.object item) → item.isAbstract = false)
    (only : p.defaults = [strategy]) (call : strategy.args? = some args) :
    ((∃ initializer, resolve schema p catalog = .ok initializer) ↔
      ∃ members, Considers type catalog strategy members ∧
        ∃! i, Fewest (members.map Member.params) args i) ∧
    ∀ initializer, resolve schema p catalog = .ok initializer →
      ∃ members i member passed, Considers type catalog strategy members ∧
        Fewest (members.map Member.params) args i ∧ members[i]? = some member ∧
        initializer = member.initializer passed ∧
        List.Forall₂ (fun pair v => pair.1.coerce pair.2 = some v) (member.params.zip args) passed ∧
        List.Forall₂ (fun param v => param.fit v = some .exact) member.params passed ∧
        initializer.produce type = member.yield type passed ∧
        ∀ (s : Schema) (blueprint : Blueprint), s.name = schema → p ∈ s.properties →
          (s.resolve catalog).blueprint = .ok blueprint → ∀ engine kind hub,
            ⟨p.name, .first (blueprint.make engine kind hub).1.owner p.name type
              (member.yield type passed)⟩ ∈ (blueprint.make engine kind hub).1.slots := by
  have bound := resolve_eq_ofStrategy catalog schema declared concrete only
  refine ⟨⟨?found, ?bound⟩, ?called⟩
  case found =>
    rintro ⟨initializer, resolved⟩
    obtain ⟨members, considered, i, _, -, best, -⟩ :=
      (ofStrategy_eq_ok_iff call).1 (bound.symm.trans resolved)
    exact ⟨members, considered, exists_best_iff.1 ⟨i, best⟩⟩
  case bound =>
    rintro ⟨members, considered, unique⟩
    obtain ⟨i, best⟩ := exists_best_iff.2 unique
    obtain ⟨member, there, -⟩ := exists_of_best best
    exact ⟨_, bound.trans ((ofStrategy_eq_ok_iff call).2
      ⟨members, considered, i, member, there, best, rfl⟩)⟩
  case called =>
    intro initializer resolved
    obtain ⟨members, considered, i, member, there, best, made⟩ :=
      (ofStrategy_eq_ok_iff call).1 (bound.symm.trans resolved)
    obtain ⟨_, same, accepts⟩ := exists_of_best best
    cases there.symm.trans same
    have yields : initializer.produce type = member.yield type (convertArgs member.params args) :=
      made ▸ member.produce_initializer type _
    refine ⟨members, i, member, _, considered, best.fewest, there, made, coerced_convertArgs accepts,
      exact_convertArgs accepts, yields, ?_⟩
    rintro s blueprint rfl mem blueprint_made engine kind hub
    rw [← yields]
    exact first_mem_slots_make mem declared resolved blueprint_made engine kind hub

/-- A type with two constructors that take two numbers. -/
def point : ObjectType where
  name := "Point"
  constructors := [⟨[.float, .float], fun args => .object "Point" [("floats", .list args)]⟩,
    ⟨[.int, .float], fun args => .object "Point" [("numbers", .list args)]⟩]

/-- A property of this type, made from two integers. -/
def corner : Property := ⟨"corner", .value (.object point), [.construct "Point" [.int 3, .int 4]]⟩

/-- The second constructor needs one conversion less, and is given a float for the second integer. -/
theorem draws_the_corner_by_the_second_constructor :
    corner.type = .value (.object point) ∧ corner.defaults = [.construct "Point" [.int 3, .int 4]] ∧
      ∃ (initializer : Initializer) (member : Member) (passed : List Value),
        resolve "Drawing" corner (.ofList [point]) = .ok initializer ∧
        initializer = member.initializer passed ∧ passed = [.int 3, .float (Binary64.ofInt 4)] ∧
        List.Forall₂ (fun param v => param.fit v = some .exact) member.params passed ∧
        initializer.produce (.object point) = .object "Point" [("numbers", .list passed)] := by
  obtain ⟨initializer, resolved, args, produced⟩ : ∃ initializer,
      resolve "Drawing" corner (.ofList [point]) = .ok initializer ∧
        initializer.args = [.int 3, .float (Binary64.ofInt 4)] ∧
        initializer.produce (.object point) =
          .object "Point" [("numbers", .list [.int 3, .float (Binary64.ofInt 4)])] :=
    ⟨_, rfl, rfl, rfl⟩
  obtain ⟨-, called⟩ := calls_resolve_to_the_best_member (.ofList [point]) "Drawing" (p := corner)
    rfl (by rintro item ⟨⟩) rfl rfl
  obtain ⟨_, _, member, passed, -, -, -, made, -, exact, -⟩ := called initializer resolved
  have same : passed = [.int 3, .float (Binary64.ofInt 4)] := by
    rw [← args, made]
    cases member with
    | constructor => rfl
    | method m => simp only [Member.initializer]; split <;> rfl
  refine ⟨rfl, rfl, initializer, member, passed, resolved, made, same, exact, ?_⟩
  rw [same, produced]

/-- An object type with the name of an enum. -/
def color : ObjectType where
  name := "Color"
  constructors := [⟨[], fun _ => .enum "Color" 0⟩]

/-- It does not count that a type that is no object type has the name of the one that is called: a
    property of an enum gets no initializer, though the object type of the enum's name is found, is not
    abstract and has just one constructor that accepts the arguments. -/
theorem refuses_the_namesake_of_an_enum :
    let enum : ValueType := .enum ⟨"Color", [("red", 0), ("blue", 1)]⟩
    Named enum (.ofList [color]) "Color" color ∧ color.isAbstract = false ∧
      color.name = enum.name ∧
      (∃! i, Fewest (color.constructors.map ConstructorOf.params) [] i) ∧
      resolve "Paint" ⟨"tint", .value enum, [.construct "Color" []]⟩ (.ofList [color]) =
        .error (.constructorResolutionFailed "Color" 0
          "produces Color, property is Color") := by
  refine ⟨.known rfl, rfl, rfl, exists_best_iff.1 ⟨0, ?_⟩, rfl⟩
  exact selectOverload_eq_ok_iff.1 rfl

end Initializer

end SettingsForge
