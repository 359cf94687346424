import Mathlib.Data.Prod.Lex
import Mathlib.Data.Sum.Order
import Mathlib.Order.WithBot
import TableQuery.Proofs.Decimal.Order
import TableQuery.Proofs.Text.Utf8
import TableQuery.ResultSet

/-!
# The rank of a key

Keys are ordered by what they stand for: strings and binaries by their bytes and numbers by their
value. A key that is missing ranks above all others, and an item ranks by its partition key and then
by its sort key. Where the keys have the types that are declared for them, comparing items is
comparing their ranks.
-/

namespace TableQuery

/-- The bytes of a string or of binary data, or the value of a number. -/
abbrev KeyRank := List ℕ ⊕ₗ ℚ

/-- The rank of a value of a type that keys can have; a number that does not parse has none. -/
def Stored.rank? : Stored → Option KeyRank
  | .string s => some (Sum.inlₗ (Text.bytes s))
  | .number n => (Decimal.ofText? n).map fun d => Sum.inrₗ d.value
  | .binary bytes => some (Sum.inlₗ (bytes.map UInt8.toNat))
  | _ => none

/-- A value of a key's type has a rank, unless it is a number that does not parse. -/
lemma Stored.isSome_rank_iff {type : ScalarType} {v : Stored} (h : type.accepts v = true) :
    v.rank?.isSome = true ↔ ∀ n, v = .number n → ∃ d, Decimal.ofText? n = some d := by
  cases v with
  | number n =>
    rw [rank?, Option.isSome_map, Option.isSome_iff_exists]
    constructor
    · intro hd m hm
      cases hm
      exact hd
    · intro hd
      exact hd n rfl
  | string s => exact iff_of_true rfl nofun
  | binary bytes => exact iff_of_true rfl nofun
  | _ => cases type <;> cases h

namespace KeyAttribute

/-- The rank of the key in an item, above all others if the item lacks the key. -/
def rank (key : KeyAttribute) (item : Item) : WithTop KeyRank :=
  ((Fields.get? key.name item).bind Stored.rank?).elim ⊤ (↑·)

/-- If an item has the key, then with a value of the declared type, and a number there is one. -/
def Types (key : KeyAttribute) (item : Item) : Prop :=
  ∀ v, Fields.get? key.name item = some v →
    key.type.accepts v = true ∧ ∀ n, v = .number n → ∃ d, Decimal.ofText? n = some d

instance (key : KeyAttribute) (item : Item) : Decidable (key.Types item) :=
  decidable_of_iff
    (∀ v ∈ Fields.get? key.name item, key.type.accepts v = true ∧ v.rank?.isSome = true)
    (forall₂_congr fun _ _ => and_congr_right Stored.isSome_rank_iff)

end KeyAttribute

namespace KeySchema

/-- The rank of an item: that of its partition key, and then that of its sort key. -/
def rank (keys : KeySchema) (item : Item) : WithTop KeyRank ×ₗ WithTop KeyRank :=
  toLex (keys.partitionKey.rank item, keys.sortKey.elim ⊤ fun key => key.rank item)

/-- The keys in an item have the types that are declared for them. -/
def Types (keys : KeySchema) (item : Item) : Prop :=
  keys.partitionKey.Types item ∧ ∀ key, keys.sortKey = some key → key.Types item

instance (keys : KeySchema) (item : Item) : Decidable (keys.Types item) :=
  inferInstanceAs (Decidable
    (keys.partitionKey.Types item ∧ ∀ key ∈ keys.sortKey, key.Types item))

end KeySchema

section Compares

variable {α β : Type} [LinearOrder α] [LinearOrder β]

/-- Things are compared by their order. -/
lemma compares_compare (a b : α) : (compare a b).Compares a b := by
  rw [← cmp_eq_compare]
  exact cmp_compares a b

/-- What is ordered by its first part, and by the rest where the first parts are equal. -/
lemma compares_then {γ : Type} [LT γ] {o o' : Ordering} {a b : α} {c d : γ} (h : o.Compares a b)
    (hlt : a < b → c < d) (hgt : b < a → d < c) (heq : a = b → o'.Compares c d) :
    (o.then o').Compares c d := by
  cases o with
  | lt => exact hlt h
  | gt => exact hgt h
  | eq => exact heq h

/-- Lists are compared by their first elements and then by the others. -/
lemma compares_cons {o o' : Ordering} {x y : α} {xs ys : List α} (h : o.Compares x y)
    (h' : o'.Compares xs ys) : (o.then o').Compares (x :: xs) (y :: ys) := by
  apply compares_then h
  · exact fun hlt => List.cons_lt_cons_iff.2 (.inl hlt)
  · exact fun hgt => List.cons_lt_cons_iff.2 (.inl hgt)
  · rintro rfl
    have hmono : StrictMono (List.cons x) := fun _ _ hlt =>
      List.cons_lt_cons_iff.2 (.inr ⟨rfl, hlt⟩)
    exact hmono.compares.2 h'

/-- Pairs are compared by their first parts and then by their second ones. -/
lemma compares_lex {o o' : Ordering} {a b : α} {c d : β} (h : o.Compares a b)
    (h' : o'.Compares c d) : (o.then o').Compares (toLex (a, c)) (toLex (b, d)) := by
  apply compares_then h
  · exact fun hlt => Prod.Lex.lt_iff.2 (.inl hlt)
  · exact fun hgt => Prod.Lex.lt_iff.2 (.inl hgt)
  · rintro rfl
    have hmono : StrictMono fun c : β => toLex (a, c) := fun _ _ hlt =>
      Prod.Lex.lt_iff.2 (.inr ⟨rfl, hlt⟩)
    exact hmono.compares.2 h'

end Compares

/-- Bytes are compared by their numbers. -/
lemma compares_toNat (a b : UInt8) : (compare a b).Compares a.toNat b.toNat := by
  cases h : compare a b with
  | lt => exact UInt8.lt_iff_toNat_lt.1 (Std.compare_eq_lt.1 h)
  | gt => exact UInt8.lt_iff_toNat_lt.1 (Std.compare_eq_gt.1 h)
  | eq => exact congrArg _ (Std.compare_eq_iff_eq.1 h)

/-- Lists of bytes are compared by their numbers. -/
lemma compares_map_toNat (as bs : List UInt8) :
    (compare as bs).Compares (as.map UInt8.toNat) (bs.map UInt8.toNat) := by
  induction as generalizing bs with
  | nil =>
    cases bs with
    | nil => exact rfl
    | cons b bs => exact List.nil_lt_cons _ _
  | cons a as ih =>
    cases bs with
    | nil => exact List.nil_lt_cons _ _
    | cons b bs =>
      rw [List.compare_cons_cons]
      exact compares_cons (compares_toNat a b) (ih bs)

/-- Strings are compared by their bytes. -/
lemma compares_bytes (s t : String) : (compare s t).Compares (Text.bytes s) (Text.bytes t) :=
  Text.strictMono_bytes.compares.2 (compares_compare s t)

/-- Keys of one type have an order, and it is that of their ranks. -/
lemma Stored.compares_rank {type : ScalarType} {v w : Stored} {r s : KeyRank}
    (hv : type.accepts v = true) (hw : type.accepts w = true) (hr : v.rank? = some r)
    (hs : w.rank? = some s) : ∃ o, v.compareScalar? w = some o ∧ o.Compares r s := by
  cases type with
  | string =>
    cases v <;> cases hv
    cases w <;> cases hw
    cases hr
    cases hs
    exact ⟨_, rfl, Sum.Lex.inl_strictMono.compares.2 (compares_bytes _ _)⟩
  | number =>
    cases v <;> cases hv
    cases w <;> cases hw
    obtain ⟨c, hc, rfl⟩ := Option.map_eq_some_iff.1 hr
    obtain ⟨d, hd, rfl⟩ := Option.map_eq_some_iff.1 hs
    refine ⟨c.compare d, ?_, Sum.Lex.inr_strictMono.compares.2 ?_⟩
    · rw [compareScalar?, hc, hd]
      rfl
    · rw [Decimal.compare_eq]
      exact compares_compare _ _
  | binary =>
    cases v <;> cases hv
    cases w <;> cases hw
    cases hr
    cases hs
    exact ⟨_, rfl, Sum.Lex.inl_strictMono.compares.2 (compares_map_toNat _ _)⟩
  | other name => cases v <;> cases hv

namespace KeyAttribute

variable {key : KeyAttribute} {item a b : Item}

/-- A key that an item lacks is above all others. -/
lemma rank_of_missing (h : Fields.get? key.name item = none) : key.rank item = ⊤ := by
  rw [rank, h]
  rfl

/-- A key that an item has with its type has a rank. -/
lemma exists_rank (htypes : key.Types item) {v : Stored} (h : Fields.get? key.name item = some v) :
    ∃ r : KeyRank, v.rank? = some r ∧ key.rank item = r := by
  obtain ⟨haccepts, hnumber⟩ := htypes v h
  obtain ⟨r, hr⟩ := Option.isSome_iff_exists.1 ((Stored.isSome_rank_iff haccepts).2 hnumber)
  refine ⟨r, hr, ?_⟩
  rw [rank, h, Option.bind_some, hr]
  rfl

/-- Only an item that lacks a key has it at the top. -/
lemma rank_eq_top_iff (htypes : key.Types item) :
    key.rank item = ⊤ ↔ Fields.get? key.name item = none := by
  constructor
  · intro htop
    cases h : Fields.get? key.name item with
    | none => rfl
    | some v =>
      obtain ⟨r, -, hr⟩ := exists_rank htypes h
      rw [hr] at htop
      cases htop
  · exact rank_of_missing

/-- An item behind one that lacks a key lacks it too. -/
lemma missing_of_rank_le (hb : key.Types b) (hle : key.rank a ≤ key.rank b)
    (ha : Fields.get? key.name a = none) : Fields.get? key.name b = none := by
  rw [rank_of_missing ha, top_le_iff] at hle
  exact (rank_eq_top_iff hb).1 hle

/-- Keys of the declared type are compared by their ranks. -/
lemma compares_rank (ha : key.Types a) (hb : key.Types b) :
    (ResultSet.compareKey (Fields.get? key.name a) (Fields.get? key.name b)).Compares
      (key.rank a) (key.rank b) := by
  cases hv : Fields.get? key.name a with
  | none =>
    rw [rank_of_missing hv]
    cases hw : Fields.get? key.name b with
    | none =>
      rw [rank_of_missing hw]
      exact rfl
    | some w =>
      obtain ⟨s, -, hs⟩ := exists_rank hb hw
      rw [hs]
      exact WithTop.coe_lt_top s
  | some v =>
    obtain ⟨r, hr, hrank⟩ := exists_rank ha hv
    rw [hrank]
    cases hw : Fields.get? key.name b with
    | none =>
      rw [rank_of_missing hw]
      exact WithTop.coe_lt_top r
    | some w =>
      obtain ⟨s, hs, hrank'⟩ := exists_rank hb hw
      obtain ⟨o, ho, hcompares⟩ := Stored.compares_rank (ha v hv).1 (hb w hw).1 hr hs
      rw [hrank', ResultSet.compareKey, ho]
      exact WithTop.coe_strictMono.compares.2 hcompares

end KeyAttribute

namespace KeySchema

variable {keys : KeySchema} {a b : Item}

/-- Items are compared by their ranks. -/
lemma compares_rank (ha : keys.Types a) (hb : keys.Types b) :
    (ResultSet.compareItems keys a b).Compares (keys.rank a) (keys.rank b) := by
  apply compares_lex (KeyAttribute.compares_rank ha.1 hb.1)
  cases h : keys.sortKey with
  | none => exact rfl
  | some key => exact KeyAttribute.compares_rank (ha.2 key h) (hb.2 key h)

/-- Items in the order of their ranks have partition keys in this order. -/
lemma partitionKey_le_of_rank_le (h : keys.rank a ≤ keys.rank b) :
    keys.partitionKey.rank a ≤ keys.partitionKey.rank b := by
  rcases Prod.Lex.le_iff.1 h with hlt | ⟨heq, -⟩
  · exact hlt.le
  · exact heq.le

/-- Items in the order of their ranks that have one partition key have sort keys in this order. -/
lemma sortKey_le_of_rank_le {key : KeyAttribute} (hkey : keys.sortKey = some key)
    (h : keys.rank a ≤ keys.rank b)
    (hpartition : keys.partitionKey.rank a = keys.partitionKey.rank b) :
    key.rank a ≤ key.rank b := by
  unfold rank at h
  rw [hkey] at h
  rcases Prod.Lex.le_iff.1 h with hlt | ⟨-, hle⟩
  · exact absurd hpartition hlt.ne
  · exact hle

end KeySchema

end TableQuery
