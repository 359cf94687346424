import TableQuery.Proofs.Except
import TableQuery.Schema.Description

/-!
# Resolving a description

A key schema resolves if it has a partition key and its keys, which are the first of each role, are
listed with a type that keys can have. A description resolves exactly if all of its key schemas do,
to the keys of the table and of each index in their order. If not, the error is that of the first
key schema that has one.
-/

namespace TableQuery

/-- A type that keys can have. -/
def ScalarType.IsKeyType (type : ScalarType) : Prop :=
  type = .string ∨ type = .number ∨ type = .binary

/-- All keys have a type that keys can have. -/
def KeySchema.HasKeyTypes (keys : KeySchema) : Prop :=
  keys.partitionKey.type.IsKeyType ∧ ∀ key, keys.sortKey = some key → key.type.IsKeyType

namespace TableDescription

/-- An element is the first of a list with a property. -/
def IsFirst {α : Type} (p : α → Prop) (l : List α) (a : α) : Prop :=
  p a ∧ ∃ before rest, l = before ++ a :: rest ∧ ∀ b ∈ before, ¬ p b

/-- The first key of a role is the attribute of a name. -/
def Names (elements : List KeyElement) (role : KeyRole) (name : String) : Prop :=
  IsFirst (fun e => e.role = role) elements ⟨name, role⟩

/-- The type that is listed first for an attribute. -/
def Defines (definitions : List AttributeDefinition) (name : String) (type : ScalarType) : Prop :=
  IsFirst (fun d => d.name = name) definitions ⟨name, type⟩

/-- The type that is listed first for a key is its own, and keys can have it. -/
def Types (definitions : List AttributeDefinition) (key : KeyAttribute) : Prop :=
  Defines definitions key.name key.type ∧ key.type.IsKeyType

/-- Why an attribute cannot be a key. -/
inductive Untyped (definitions : List AttributeDefinition) (name : String) : SchemaError → Prop where
  | undefined :
    (∀ d ∈ definitions, d.name ≠ name) →
    Untyped definitions name (.undefinedKey name)
  | invalid {type} :
    Defines definitions name (.other type) →
    Untyped definitions name (.invalidKeyType name type)

/-- A key schema has a partition key, and the first key of each role is listed with a type that keys
can have. -/
structure Resolvable (definitions : List AttributeDefinition) (elements : List KeyElement) :
    Prop where
  partition : ∃ e ∈ elements, e.role = .partition
  typed : ∀ role name, Names elements role name → ∃ type, Types definitions ⟨name, type⟩

/-- The keys of a key schema: the first of each role, with the type that is listed first for it. -/
structure Resolves (definitions : List AttributeDefinition) (elements : List KeyElement)
    (keys : KeySchema) : Prop where
  partition : Names elements .partition keys.partitionKey.name
  partitionType : Types definitions keys.partitionKey
  sort : ∀ key, keys.sortKey = some key →
    Names elements .sort key.name ∧ Types definitions key
  noSort : keys.sortKey = none → ∀ e ∈ elements, e.role ≠ .sort

/-- Why a key schema has no keys: a partition key that is missing comes before one without a type,
and that before a sort key without a type. -/
inductive Fails (definitions : List AttributeDefinition) (owner : String)
    (elements : List KeyElement) : SchemaError → Prop where
  | missing :
    (∀ e ∈ elements, e.role ≠ .partition) →
    Fails definitions owner elements (.missingPartitionKey owner)
  | partition {name e} :
    Names elements .partition name →
    Untyped definitions name e →
    Fails definitions owner elements e
  | sort {key name e} :
    Names elements .partition key.name →
    Types definitions key →
    Names elements .sort name →
    Untyped definitions name e →
    Fails definitions owner elements e

/-- The keys of an index, under its name. -/
def ResolvesIndex (definitions : List AttributeDefinition) (index : IndexDescription)
    (s : IndexSchema) : Prop :=
  s.name = index.name ∧ Resolves definitions index.keys s.keys

/-- A schema has the keys of the table, then those of each global and then of each local index. -/
structure Describes (d : TableDescription) (schema : TableSchema) : Prop where
  table : schema.table = d.table
  primary : Resolves d.definitions d.keys schema.primary
  indexes : ∃ globals locals, schema.indexes = globals ++ locals
    ∧ List.Forall₂ (ResolvesIndex d.definitions) d.globalIndexes globals
    ∧ List.Forall₂ (ResolvesIndex d.definitions) d.localIndexes locals

/-- The key schemas of a description with the names of the table and of the indexes. -/
def keySchemas (d : TableDescription) : List (String × List KeyElement) :=
  (d.table, d.keys) :: (d.globalIndexes ++ d.localIndexes).map fun index => (index.name, index.keys)

/-- The error of the first key schema that does not resolve. -/
def FailsFirst (d : TableDescription) (e : SchemaError) : Prop :=
  ∃ before owner elements rest, d.keySchemas = before ++ (owner, elements) :: rest
    ∧ (∀ s ∈ before, Resolvable d.definitions s.2) ∧ Fails d.definitions owner elements e

section IsFirst

variable {α β : Type} [DecidableEq β] {f : α → β} {b : β} {l : List α} {a a' : α}

/-- A search by a field finds an entry exactly when it is the first with that field. -/
lemma find?_eq_some_iff_isFirst :
    (l.find? fun a => f a == b) = some a ↔ IsFirst (fun a => f a = b) l a := by
  rw [List.find?_eq_some_iff_append, beq_iff_eq]
  simp only [Bool.not_eq_eq_eq_not, Bool.not_true, beq_eq_false_iff_ne]
  exact Iff.rfl

/-- A search by a field fails exactly when no entry has that field. -/
lemma find?_eq_none_iff_forall : (l.find? fun a => f a == b) = none ↔ ∀ a ∈ l, f a ≠ b := by
  simp only [List.find?_eq_none, beq_iff_eq, ne_eq]

/-- A list has at most one first entry with a given field. -/
lemma IsFirst.unique (h : IsFirst (fun a => f a = b) l a) (h' : IsFirst (fun a => f a = b) l a') :
    a = a' :=
  Option.some.inj ((find?_eq_some_iff_isFirst.2 h).symm.trans (find?_eq_some_iff_isFirst.2 h'))

/-- There is a first element with a value, or no element has it. -/
lemma exists_isFirst_or (f : α → β) (b : β) (l : List α) :
    (∃ a, IsFirst (fun a => f a = b) l a) ∨ ∀ a ∈ l, f a ≠ b := by
  cases h : l.find? fun a => f a == b with
  | none => exact .inr (find?_eq_none_iff_forall.1 h)
  | some a => exact .inl ⟨a, find?_eq_some_iff_isFirst.1 h⟩

end IsFirst

variable {definitions : List AttributeDefinition} {elements : List KeyElement} {role : KeyRole}
variable {owner name : String} {type : ScalarType} {key : KeyAttribute} {keys : KeySchema}
variable {d : TableDescription} {schema : TableSchema} {e : SchemaError}

/-- Either the elements name an attribute for a role, or no element has the role. -/
lemma exists_names_or (elements : List KeyElement) (role : KeyRole) :
    (∃ name, Names elements role name) ∨ ∀ e ∈ elements, e.role ≠ role := by
  apply (exists_isFirst_or KeyElement.role role elements).imp_left
  rintro ⟨⟨name, _⟩, h⟩
  obtain rfl := h.1
  exact ⟨name, h⟩

/-- Either the definitions type an attribute, or no definition has its name. -/
lemma exists_defines_or (definitions : List AttributeDefinition) (name : String) :
    (∃ type, Defines definitions name type) ∨ ∀ d ∈ definitions, d.name ≠ name := by
  apply (exists_isFirst_or AttributeDefinition.name name definitions).imp_left
  rintro ⟨⟨_, type⟩, h⟩
  obtain rfl := h.1
  exact ⟨type, h⟩

/-- The elements name at most one attribute for a role. -/
lemma Names.unique {other : String} (h : Names elements role name)
    (h' : Names elements role other) : name = other :=
  congrArg KeyElement.name (IsFirst.unique h h')

/-- An attribute named for a role is that of an element with the role. -/
lemma Names.exists_mem (h : Names elements role name) : ∃ e ∈ elements, e.role = role :=
  ⟨_, List.mem_of_find?_eq_some (find?_eq_some_iff_isFirst.2 h), rfl⟩

/-- An attribute can be a key, or there is a reason why it cannot. -/
lemma types_or_untyped (definitions : List AttributeDefinition) (name : String) :
    (∃ type, Types definitions ⟨name, type⟩) ∨ ∃ e, Untyped definitions name e := by
  rcases exists_defines_or definitions name with ⟨type, h⟩ | h
  · cases type with
    | other type => exact .inr ⟨_, .invalid h⟩
    | string => exact .inl ⟨.string, h, .inl rfl⟩
    | number => exact .inl ⟨.number, h, .inr (.inl rfl)⟩
    | binary => exact .inl ⟨.binary, h, .inr (.inr rfl)⟩
  · exact .inr ⟨_, .undefined h⟩

/-- A key whose type the definitions give resolves to itself. -/
lemma resolveKey_of_types (h : Types definitions key) :
    resolveKey definitions key.name = .ok key := by
  obtain ⟨name, type⟩ := key
  obtain ⟨hdefines, htype⟩ := h
  rw [resolveKey, find?_eq_some_iff_isFirst.2 hdefines]
  rcases htype with rfl | rfl | rfl <;> rfl

/-- A key that the definitions leave untyped fails with the error of that case. -/
lemma resolveKey_of_untyped (h : Untyped definitions name e) :
    resolveKey definitions name = .error e := by
  cases h with
  | undefined hnone => rw [resolveKey, find?_eq_none_iff_forall.2 hnone]
  | invalid hdefines => rw [resolveKey, find?_eq_some_iff_isFirst.2 hdefines]

/-- A key schema has keys, or there is a reason why it has none. -/
lemma resolves_or_fails (definitions : List AttributeDefinition) (owner : String)
    (elements : List KeyElement) :
    (∃ keys, Resolves definitions elements keys) ∨ ∃ e, Fails definitions owner elements e := by
  rcases exists_names_or elements .partition with ⟨name, hname⟩ | hmissing
  · rcases types_or_untyped definitions name with ⟨type, htype⟩ | ⟨e, he⟩
    · rcases exists_names_or elements .sort with ⟨sort, hsort⟩ | hnoSort
      · rcases types_or_untyped definitions sort with ⟨sortType, hsortType⟩ | ⟨e, he⟩
        · refine .inl ⟨⟨⟨name, type⟩, some ⟨sort, sortType⟩⟩, hname, htype, ?_, nofun⟩
          rintro key ⟨⟩
          exact ⟨hsort, hsortType⟩
        · refine .inr ⟨e, .sort ?_ htype hsort he⟩
          exact hname
      · exact .inl ⟨⟨⟨name, type⟩, none⟩, hname, htype, nofun, fun _ => hnoSort⟩
    · exact .inr ⟨e, .partition hname he⟩
  · exact .inr ⟨_, .missing hmissing⟩

/-- Once the partition key is resolved, only the sort key is left to resolve. -/
lemma resolveKeys_of_partition (hname : Names elements .partition key.name)
    (htypes : Types definitions key) :
    resolveKeys definitions owner elements = match elements.find? fun e => e.role == .sort with
      | none => .ok ⟨key, none⟩
      | some sort => do return ⟨key, some (← resolveKey definitions sort.name)⟩ := by
  rw [resolveKeys, find?_eq_some_iff_isFirst.2 hname]
  show resolveKey definitions key.name >>= _ = _
  rw [resolveKey_of_types htypes]
  rfl

/-- Elements that describe a key schema resolve to it. -/
lemma resolveKeys_of_resolves (h : Resolves definitions elements keys) :
    resolveKeys definitions owner elements = .ok keys := by
  rw [resolveKeys_of_partition h.partition h.partitionType]
  obtain ⟨partitionKey, sortKey⟩ := keys
  cases sortKey with
  | none => rw [find?_eq_none_iff_forall.2 (h.noSort rfl)]
  | some key =>
    obtain ⟨hname, htypes⟩ := h.sort key rfl
    rw [find?_eq_some_iff_isFirst.2 hname]
    show resolveKey definitions _ >>= _ = _
    rw [resolveKey_of_types htypes]
    rfl

/-- Elements with a fault fail with the error of the first fault. -/
lemma resolveKeys_of_fails (h : Fails definitions owner elements e) :
    resolveKeys definitions owner elements = .error e := by
  cases h with
  | missing hmissing =>
    rw [resolveKeys, find?_eq_none_iff_forall.2 hmissing]
  | partition hname he =>
    rw [resolveKeys, find?_eq_some_iff_isFirst.2 hname]
    show resolveKey definitions _ >>= _ = _
    rw [resolveKey_of_untyped he]
    rfl
  | sort hname htypes hsort he =>
    rw [resolveKeys_of_partition hname htypes, find?_eq_some_iff_isFirst.2 hsort]
    show resolveKey definitions _ >>= _ = _
    rw [resolveKey_of_untyped he]
    rfl

/-- Resolving a key schema succeeds exactly with what its elements describe. -/
lemma resolveKeys_eq_ok_iff :
    resolveKeys definitions owner elements = .ok keys ↔ Resolves definitions elements keys :=
  (outcome_iff (fun _ => resolveKeys_of_resolves) (fun _ => resolveKeys_of_fails)
    (resolves_or_fails definitions owner elements)).1 keys

/-- Resolving a key schema fails exactly with the error of its first fault. -/
lemma resolveKeys_eq_error_iff :
    resolveKeys definitions owner elements = .error e ↔ Fails definitions owner elements e :=
  (outcome_iff (fun _ => resolveKeys_of_resolves) (fun _ => resolveKeys_of_fails)
    (resolves_or_fails definitions owner elements)).2 e

/-- A key with a type is not untyped. -/
lemma Types.not_untyped (h : Types definitions ⟨name, type⟩) : ¬ Untyped definitions name e := by
  intro he
  cases (resolveKey_of_types h).symm.trans (resolveKey_of_untyped he)

/-- A key schema has keys exactly if it can be resolved. -/
lemma exists_resolves_iff :
    (∃ keys, Resolves definitions elements keys) ↔ Resolvable definitions elements := by
  constructor
  · rintro ⟨keys, h⟩
    refine ⟨h.partition.exists_mem, fun role name hname => ?_⟩
    cases role with
    | partition =>
      obtain rfl := hname.unique h.partition
      exact ⟨_, h.partitionType⟩
    | sort =>
      cases hsort : keys.sortKey with
      | none =>
        obtain ⟨e, he, hrole⟩ := hname.exists_mem
        exact absurd hrole (h.noSort hsort e he)
      | some key =>
        obtain ⟨hkey, htypes⟩ := h.sort key hsort
        obtain rfl := hname.unique hkey
        exact ⟨_, htypes⟩
  · intro h
    apply (resolves_or_fails definitions "" elements).resolve_right
    rintro ⟨e, he⟩
    cases he with
    | missing hmissing =>
      obtain ⟨e, he, hrole⟩ := h.partition
      exact hmissing e he hrole
    | partition hname huntyped | sort _ _ hname huntyped =>
      obtain ⟨type, htypes⟩ := h.typed _ _ hname
      exact htypes.not_untyped huntyped

/-- A key schema resolves, under any owner's name, exactly when its keys are named and typed. -/
lemma exists_resolveKeys_iff (owner : String) :
    (∃ keys, resolveKeys definitions owner elements = .ok keys)
      ↔ Resolvable definitions elements := by
  rw [← exists_resolves_iff]
  exact exists_congr fun _ => resolveKeys_eq_ok_iff

/-- The keys of an index, under its name. -/
def resolveIndex (definitions : List AttributeDefinition) (index : IndexDescription) :
    Except SchemaError IndexSchema := do
  return ⟨index.name, ← resolveKeys definitions index.name index.keys⟩

/-- A description is resolved by its primary keys first, then its global and its local indexes in
order. -/
lemma resolve_eq (d : TableDescription) : d.resolve = (do
    let primary ← resolveKeys d.definitions d.table d.keys
    let indexes ← (d.globalIndexes ++ d.localIndexes).mapM (resolveIndex d.definitions)
    return ⟨d.table, primary, indexes⟩) :=
  rfl

/-- Resolving an index succeeds exactly with the schema that its description gives. -/
lemma resolveIndex_eq_ok_iff {index : IndexDescription} {s : IndexSchema} :
    resolveIndex definitions index = .ok s ↔ ResolvesIndex definitions index s := by
  rw [resolveIndex, bind_eq_ok_iff]
  constructor
  · rintro ⟨keys, hkeys, h⟩
    cases h
    exact ⟨rfl, resolveKeys_eq_ok_iff.1 hkeys⟩
  · rintro ⟨hname, hkeys⟩
    refine ⟨s.keys, resolveKeys_eq_ok_iff.2 hkeys, ?_⟩
    rw [← hname]
    rfl

/-- Resolving an index fails exactly with the error of its key schema. -/
lemma resolveIndex_eq_error_iff {index : IndexDescription} :
    resolveIndex definitions index = .error e ↔ Fails definitions index.name index.keys e := by
  rw [resolveIndex, bind_eq_error_iff, resolveKeys_eq_error_iff]
  exact or_iff_left fun ⟨_, _, h⟩ => nomatch h

/-- An index resolves exactly when its key schema can be resolved. -/
lemma exists_resolveIndex_iff {index : IndexDescription} :
    (∃ s, resolveIndex definitions index = .ok s) ↔ Resolvable definitions index.keys := by
  simp only [resolveIndex_eq_ok_iff, ← exists_resolves_iff]
  constructor
  · rintro ⟨s, -, h⟩
    exact ⟨s.keys, h⟩
  · rintro ⟨keys, h⟩
    exact ⟨⟨index.name, keys⟩, rfl, h⟩

/-- Resolving a description succeeds exactly with the schema it describes. -/
lemma resolve_eq_ok_iff : d.resolve = .ok schema ↔ Describes d schema := by
  have hindexes : ∀ {l : List IndexDescription} {ss : List IndexSchema},
      l.mapM (resolveIndex d.definitions) = .ok ss
        ↔ List.Forall₂ (ResolvesIndex d.definitions) l ss := by
    intro l ss
    rw [mapM_eq_ok_iff]
    simp only [resolveIndex_eq_ok_iff]
  rw [resolve_eq, List.mapM_append, bind_eq_ok_iff]
  simp only [bind_eq_ok_iff, resolveKeys_eq_ok_iff, hindexes]
  constructor
  · rintro ⟨primary, hprimary, indexes, ⟨globals, hglobals, locals, hlocals, h⟩, h'⟩
    cases h
    cases h'
    exact ⟨rfl, hprimary, globals, locals, rfl, hglobals, hlocals⟩
  · rintro ⟨htable, hprimary, globals, locals, h, hglobals, hlocals⟩
    refine ⟨schema.primary, hprimary, _, ⟨globals, hglobals, locals, hlocals, rfl⟩, ?_⟩
    rw [← htable, ← h]
    rfl

/-- Resolving a description fails exactly with the error of its first faulty key schema. -/
lemma resolve_eq_error_iff : d.resolve = .error e ↔ FailsFirst d e := by
  rw [resolve_eq, bind_eq_error_iff]
  constructor
  · rintro (h | ⟨primary, hprimary, h⟩)
    · exact ⟨[], d.table, d.keys, _, rfl, nofun, resolveKeys_eq_error_iff.1 h⟩
    · rcases bind_eq_error_iff.1 h with h | ⟨_, _, h⟩
      · obtain ⟨before, index, rest, hsplit, hbefore, hindex⟩ := mapM_eq_error_iff.1 h
        refine ⟨(d.table, d.keys) :: before.map fun index => (index.name, index.keys), index.name,
          index.keys, rest.map fun index => (index.name, index.keys), ?_, ?_,
          resolveIndex_eq_error_iff.1 hindex⟩
        · rw [keySchemas, hsplit, List.map_append]
          rfl
        · rw [List.forall_mem_cons, List.forall_mem_map]
          exact ⟨(exists_resolveKeys_iff _).1 ⟨primary, hprimary⟩,
            fun index hmem => exists_resolveIndex_iff.1 (hbefore index hmem)⟩
      · cases h
  · rintro ⟨before, owner, elements, rest, hcut, hbefore, hfails⟩
    cases before with
    | nil =>
      cases hcut
      exact .inl (resolveKeys_eq_error_iff.2 hfails)
    | cons table before =>
      obtain ⟨htable, hindexes⟩ := List.cons.inj hcut
      obtain ⟨hprimary, hbefore⟩ := List.forall_mem_cons.1 hbefore
      obtain ⟨indexes, behind, hsplit, rfl, hrest⟩ := List.map_eq_append_iff.1 hindexes
      obtain ⟨index, rest', rfl, hindex, -⟩ := List.map_eq_cons_iff.1 hrest
      cases hindex
      rw [← htable] at hprimary
      obtain ⟨primary, hprimary⟩ := (exists_resolveKeys_iff _).2 hprimary
      refine .inr ⟨primary, hprimary, bind_eq_error_iff.2 (.inl (mapM_eq_error_iff.2 ?_))⟩
      refine ⟨indexes, index, rest', hsplit, fun other hmem => ?_,
        resolveIndex_eq_error_iff.2 hfails⟩
      exact exists_resolveIndex_iff.2 (hbefore _ (List.mem_map_of_mem hmem))

/-- A description resolves exactly when each of its key schemas does. -/
lemma exists_resolve_iff :
    (∃ schema, d.resolve = .ok schema) ↔ ∀ s ∈ d.keySchemas, Resolvable d.definitions s.2 := by
  have hindexes : (∀ index ∈ d.globalIndexes ++ d.localIndexes, Resolvable d.definitions index.keys)
      ↔ ∃ ss, (d.globalIndexes ++ d.localIndexes).mapM (resolveIndex d.definitions) = .ok ss := by
    rw [exists_mapM_eq_ok_iff]
    exact forall₂_congr fun _ _ => exists_resolveIndex_iff.symm
  rw [keySchemas, List.forall_mem_cons, List.forall_mem_map, hindexes,
    ← exists_resolveKeys_iff d.table]
  simp only [resolve_eq, bind_eq_ok_iff]
  constructor
  · rintro ⟨_, primary, hprimary, indexes, hindexes, -⟩
    exact ⟨⟨primary, hprimary⟩, indexes, hindexes⟩
  · rintro ⟨⟨primary, hprimary⟩, indexes, hindexes⟩
    exact ⟨_, primary, hprimary, indexes, hindexes, rfl⟩

/-- The keys of a resolved key schema have types that keys may have. -/
lemma Resolves.hasKeyTypes (h : Resolves definitions elements keys) : keys.HasKeyTypes :=
  ⟨h.partitionType.2, fun key hkey => (h.sort key hkey).2.2⟩

/-- The keys of resolved indexes have types that keys may have. -/
lemma hasKeyTypes_of_resolvesIndex {indexes : List IndexDescription} {ss : List IndexSchema}
    (h : List.Forall₂ (ResolvesIndex definitions) indexes ss) :
    ∀ s ∈ ss, s.keys.HasKeyTypes := by
  induction h with
  | nil => exact nofun
  | cons h _ ih => exact List.forall_mem_cons.2 ⟨h.2.hasKeyTypes, ih⟩

/-- In a described schema every key has a type that keys may have. -/
lemma Describes.hasKeyTypes (h : Describes d schema) : ∀ s ∈ schema.keySchemas, s.2.HasKeyTypes := by
  obtain ⟨globals, locals, hindexes, hglobals, hlocals⟩ := h.indexes
  rw [TableSchema.keySchemas, List.forall_mem_cons, List.forall_mem_map, hindexes,
    List.forall_mem_append]
  exact ⟨h.primary.hasKeyTypes, hasKeyTypes_of_resolvesIndex hglobals,
    hasKeyTypes_of_resolvesIndex hlocals⟩

/-- A description resolves exactly if each of its key schemas has a partition key and first keys
whose first listed types keys can have. Then the schema has these keys with these types, of the
table and of each index in their order. Otherwise the error is that of the first key schema that
has one. -/
theorem resolve_exact (d : TableDescription) :
    ((∃ schema, d.resolve = .ok schema) ↔ ∀ s ∈ d.keySchemas, Resolvable d.definitions s.2)
    ∧ (∀ schema, d.resolve = .ok schema ↔ Describes d schema)
    ∧ (∀ schema, d.resolve = .ok schema → ∀ s ∈ schema.keySchemas, s.2.HasKeyTypes)
    ∧ ∀ e, d.resolve = .error e ↔ FailsFirst d e :=
  ⟨exists_resolve_iff, fun _ => resolve_eq_ok_iff,
    fun _ h => (resolve_eq_ok_iff.1 h).hasKeyTypes, fun _ => resolve_eq_error_iff⟩

/-- Keys in any order, a second partition key and a second type are passed over; a partition key of
no key type comes before a sort key without a type, and before an index without keys. -/
theorem resolve_exact_repeated :
    let definitions : List AttributeDefinition :=
      [⟨"p", .string⟩, ⟨"s", .number⟩, ⟨"p", .other "M"⟩, ⟨"x", .other "M"⟩]
    let keys : List KeyElement := [⟨"s", .sort⟩, ⟨"p", .partition⟩, ⟨"x", .partition⟩]
    let d : TableDescription :=
      ⟨"t", keys, definitions, [⟨"g", [⟨"s", .partition⟩]⟩], [⟨"l", keys⟩]⟩
    let failing : TableDescription :=
      ⟨"t", keys, definitions, [⟨"g", [⟨"y", .sort⟩, ⟨"x", .partition⟩]⟩], [⟨"l", []⟩]⟩
    let both : KeySchema := ⟨⟨"p", .string⟩, some ⟨"s", .number⟩⟩
    Describes d ⟨"t", both, [⟨"g", ⟨⟨"s", .number⟩, none⟩⟩, ⟨"l", both⟩]⟩
      ∧ FailsFirst failing (.invalidKeyType "x" "M") := by
  intro definitions keys d failing both
  exact ⟨((resolve_exact d).2.1 _).1 rfl, ((resolve_exact failing).2.2.2 _).1 rfl⟩

end TableDescription

end TableQuery
