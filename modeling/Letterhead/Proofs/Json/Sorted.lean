import Letterhead.Json.Writer
import Mathlib.Data.List.Forall2
import Mathlib.Data.List.Nodup

/-!
# Values up to the order of their members

Two values are the same if they differ at most in the order of members, at any depth. Where no
object has a key twice, a value has one form in which all members are sorted by key, and values are
the same just if their sorted forms are equal.

## Main definitions

* `Json.Same` — the values that are the same, members compared by key
* `Json.IsPlain` — the values without binary numbers in which no object has a key twice
* `Json.sorted` — a value with the members of all its objects sorted by key

## Main results

* `Json.IsPlain.same_iff` — plain values are the same just if their sorted forms are equal
* `Json.IsPlain.same_of_perm` — the order of members does not matter
* `Json.IsPlain.sorted_same` — a plain value is the same as its sorted form
-/

namespace Letterhead.Json

/-- The values that are the same: parts without members are equal, and objects have the same keys
with the same values under them, in whatever order. -/
inductive Same : Json → Json → Prop
  | null : Same null null
  | bool (b : Bool) : Same (bool b) (bool b)
  | integer (n : Int) : Same (integer n) (integer n)
  | real (x : Binary64) : Same (real x) (real x)
  | string (t : Text) : Same (string t) (string t)
  | array {items items' : List Json} (h : List.Forall₂ Same items items') :
      Same (array items) (array items')
  | object {members members' : List (Text × Json)}
      (h : ∀ key, Option.Rel Same (members.lookup key) (members'.lookup key)) :
      Same (object members) (object members')

attribute [simp] Same.null Same.bool Same.integer Same.string

/-- The values without binary numbers in which no object has a key twice. -/
inductive IsPlain : Json → Prop
  | null : IsPlain null
  | bool (b : Bool) : IsPlain (bool b)
  | integer (n : Int) : IsPlain (integer n)
  | string (t : Text) : IsPlain (string t)
  | array {items : List Json} (h : ∀ item ∈ items, IsPlain item) : IsPlain (array items)
  | object {members : List (Text × Json)} (hkeys : (members.map (·.1)).Nodup)
      (h : ∀ member ∈ members, IsPlain member.2) : IsPlain (object members)

theorem isPlain_object_iff {members : List (Text × Json)} :
    (object members).IsPlain ↔
      (members.map (·.1)).Nodup ∧ ∀ member ∈ members, member.2.IsPlain := by
  constructor
  · intro h
    cases h with
    | object hkeys hvalues => exact ⟨hkeys, hvalues⟩
  · exact fun h => .object h.1 h.2

/-- Whether the key of a member comes before that of another, or is the same. -/
def memberLe (a b : Text × Json) : Bool := (compare a.1 b.1).isLE

mutual

/-- A value with the members of all its objects sorted by key. -/
def sorted : Json → Json
  | array items => array (sortedItems items)
  | object members => object ((sortedMembers members).mergeSort memberLe)
  | value => value

/-- Items, each with its members sorted. -/
def sortedItems : List Json → List Json
  | [] => []
  | item :: rest => sorted item :: sortedItems rest

/-- Members in their order, the values with their members sorted. -/
def sortedMembers : List (Text × Json) → List (Text × Json)
  | [] => []
  | (key, value) :: rest => (key, sorted value) :: sortedMembers rest

end

@[simp] theorem sorted_null : null.sorted = null := by simp [sorted]

@[simp] theorem sorted_bool (b : Bool) : (bool b).sorted = bool b := by simp [sorted]

@[simp] theorem sorted_integer (n : Int) : (integer n).sorted = integer n := by simp [sorted]

@[simp] theorem sorted_string (t : Text) : (string t).sorted = string t := by simp [sorted]

theorem sortedItems_eq (items : List Json) : sortedItems items = items.map sorted := by
  induction items with
  | nil => rw [sortedItems, List.map_nil]
  | cons item rest ih => rw [sortedItems, ih, List.map_cons]

theorem sortedMembers_eq (members : List (Text × Json)) :
    sortedMembers members = members.map (Prod.map id sorted) := by
  induction members with
  | nil => rw [sortedMembers, List.map_nil]
  | cons member rest ih => rw [sortedMembers, ih, List.map_cons]; rfl

@[simp] theorem sorted_array (items : List Json) :
    (array items).sorted = array (items.map sorted) := by
  rw [sorted, sortedItems_eq]

@[simp] theorem sorted_object (members : List (Text × Json)) :
    (object members).sorted = object ((members.map (Prod.map id sorted)).mergeSort memberLe) := by
  rw [sorted, sortedMembers_eq]

/-! ### Members sorted by key -/

section Members

variable {members members' : List (Text × Json)} {key : Text} {value : Json}

theorem pairwise_mergeSort_memberLe (members : List (Text × Json)) :
    (members.mergeSort memberLe).Pairwise fun a b => memberLe a b := by
  apply List.pairwise_mergeSort
  · intro a b c hab hbc
    exact Std.TransCmp.isLE_trans hab hbc
  · intro a b
    have hswap : compare b.1 a.1 = (compare a.1 b.1).swap := Std.OrientedCmp.eq_swap
    rw [memberLe, memberLe, hswap]
    cases compare a.1 b.1 <;> rfl

theorem mergeSort_mergeSort (members : List (Text × Json)) :
    (members.mergeSort memberLe).mergeSort memberLe = members.mergeSort memberLe :=
  List.mergeSort_of_pairwise (pairwise_mergeSort_memberLe members)

/-- The order of members depends on their keys alone. -/
theorem mergeSort_map_snd (f : Json → Json) (members : List (Text × Json)) :
    (members.map (Prod.map id f)).mergeSort memberLe =
      (members.mergeSort memberLe).map (Prod.map id f) :=
  (List.map_mergeSort (f := Prod.map id f) fun _ _ _ _ => rfl).symm

theorem mem_iff_lookup_eq (hkeys : (members.map (·.1)).Nodup) :
    (key, value) ∈ members ↔ members.lookup key = some value := by
  induction members with
  | nil => simp
  | cons member rest ih =>
    obtain ⟨k, v⟩ := member
    rw [List.map_cons, List.nodup_cons] at hkeys
    by_cases hk : key = k
    · subst hk
      have hrest : (key, value) ∉ rest := fun h => hkeys.1 (List.mem_map.mpr ⟨_, h, rfl⟩)
      simp [hrest, eq_comm]
    · simp [hk, List.lookup_cons, beq_false_of_ne hk, ih hkeys.2]

theorem perm_iff_lookup_eq (hkeys : (members.map (·.1)).Nodup)
    (hkeys' : (members'.map (·.1)).Nodup) :
    members.Perm members' ↔ ∀ key, members.lookup key = members'.lookup key := by
  rw [List.perm_ext_iff_of_nodup (List.Nodup.of_map _ hkeys) (List.Nodup.of_map _ hkeys')]
  constructor
  · intro h key
    ext value
    rw [← mem_iff_lookup_eq hkeys, ← mem_iff_lookup_eq hkeys', h]
  · rintro h ⟨key, value⟩
    rw [mem_iff_lookup_eq hkeys, mem_iff_lookup_eq hkeys', h]

theorem eq_of_mem_of_key_eq (hkeys : (members.map (·.1)).Nodup) {a b : Text × Json}
    (ha : a ∈ members) (hb : b ∈ members) (hkey : a.1 = b.1) : a = b :=
  List.inj_on_of_nodup_map hkeys ha hb hkey

theorem mergeSort_eq_iff_perm (hkeys : (members.map (·.1)).Nodup) :
    members.mergeSort memberLe = members'.mergeSort memberLe ↔ members.Perm members' := by
  have hperm := List.mergeSort_perm members memberLe
  have hperm' := List.mergeSort_perm members' memberLe
  constructor
  · intro h
    exact hperm.symm.trans (h ▸ hperm')
  · intro h
    refine List.Perm.eq_of_pairwise ?_ (pairwise_mergeSort_memberLe members)
      (pairwise_mergeSort_memberLe members') (hperm.trans (h.trans hperm'.symm))
    intro a b ha hb hab hba
    have hkey : a.1 = b.1 :=
      Std.LawfulEqCmp.eq_of_compare (Std.OrientedCmp.isLE_antisymm hab hba)
    exact eq_of_mem_of_key_eq hkeys (hperm.mem_iff.mp ha)
      ((hperm'.trans h.symm).mem_iff.mp hb) hkey

theorem lookup_map_snd (f : Json → Json) (members : List (Text × Json)) (key : Text) :
    (members.map (Prod.map id f)).lookup key = (members.lookup key).map f := by
  induction members with
  | nil => rfl
  | cons member rest ih =>
    obtain ⟨k, v⟩ := member
    rw [List.map_cons, Prod.map_apply, id_eq, List.lookup_cons, List.lookup_cons, ih]
    cases hk : key == k <;> simp

theorem nodup_keys_map_snd (f : Json → Json) (hkeys : (members.map (·.1)).Nodup) :
    ((members.map (Prod.map id f)).map (·.1)).Nodup := by
  simpa [Function.comp_def] using hkeys

end Members

/-! ### The same values have one sorted form -/

@[simp] theorem same_array_iff {items items' : List Json} :
    (array items).Same (array items') ↔ List.Forall₂ Same items items' := by
  constructor
  · intro h
    cases h with
    | array hitems => exact hitems
  · exact .array

@[simp] theorem same_object_iff {members members' : List (Text × Json)} :
    (object members).Same (object members') ↔
      ∀ key, Option.Rel Same (members.lookup key) (members'.lookup key) := by
  constructor
  · intro h
    cases h with
    | object hmembers => exact hmembers
  · exact .object

theorem forall₂_same_iff {items items' : List Json}
    (h : ∀ a ∈ items, ∀ b ∈ items', a.Same b ↔ a.sorted = b.sorted) :
    List.Forall₂ Same items items' ↔ items.map sorted = items'.map sorted := by
  induction items generalizing items' with
  | nil => cases items' <;> simp
  | cons a rest ih =>
    cases items' with
    | nil => simp
    | cons b rest' =>
      have hrest := ih fun x hx y hy => h x (.tail a hx) y (.tail b hy)
      rw [List.forall₂_cons, List.map_cons, List.map_cons, List.cons.injEq, hrest,
        h a (.head rest) b (.head rest')]

theorem rel_same_iff {value value' : Option Json}
    (h : ∀ a ∈ value, ∀ b ∈ value', a.Same b ↔ a.sorted = b.sorted) :
    Option.Rel Same value value' ↔ value.map sorted = value'.map sorted := by
  cases value <;> cases value' <;> simp_all

/-- Plain values are the same just if their sorted forms are equal. -/
theorem IsPlain.same_iff {a b : Json} (ha : a.IsPlain) (hb : b.IsPlain) :
    a.Same b ↔ a.sorted = b.sorted := by
  induction ha generalizing b with
  | array hitems ih =>
    cases hb with
    | array hitems' =>
      rw [same_array_iff, sorted_array, sorted_array, array.injEq]
      exact forall₂_same_iff fun a hmem b hmem' => ih a hmem (hitems' b hmem')
    | _ => exact iff_of_false nofun (by simp)
  | @object members hkeys hvalues ih =>
    cases hb with
    | @object members' hkeys' hvalues' =>
      -- At every key the values are compared by their sorted forms, so the two objects agree at all
      -- keys just if they have the same members but for the order.
      have hrel (key : Text) :
          Option.Rel Same (members.lookup key) (members'.lookup key) ↔
            (members.map (Prod.map id sorted)).lookup key =
              (members'.map (Prod.map id sorted)).lookup key := by
        rw [lookup_map_snd, lookup_map_snd]
        refine rel_same_iff fun a hmem b hmem' => ?_
        exact ih (key, a) ((mem_iff_lookup_eq hkeys).mpr hmem)
          (hvalues' (key, b) ((mem_iff_lookup_eq hkeys').mpr hmem'))
      rw [same_object_iff, sorted_object, sorted_object, object.injEq,
        mergeSort_eq_iff_perm (nodup_keys_map_snd sorted hkeys),
        perm_iff_lookup_eq (nodup_keys_map_snd sorted hkeys) (nodup_keys_map_snd sorted hkeys')]
      exact forall_congr' hrel
    | _ => exact iff_of_false nofun (by simp)
  | _ =>
    cases hb with
    | array _ | object _ _ => exact iff_of_false nofun (by simp)
    | _ =>
      constructor
      · intro h
        cases h <;> rfl
      · intro h
        simp_all

/-- Sorting the members takes a plain value to a plain one. -/
theorem IsPlain.sorted {a : Json} (ha : a.IsPlain) : a.sorted.IsPlain := by
  induction ha with
  | null => rw [sorted_null]; exact .null
  | bool b => rw [sorted_bool]; exact .bool b
  | integer n => rw [sorted_integer]; exact .integer n
  | string t => rw [sorted_string]; exact .string t
  | array _ ih =>
    rw [sorted_array]
    refine .array fun item hitem => ?_
    obtain ⟨original, hmem, rfl⟩ := List.mem_map.mp hitem
    exact ih original hmem
  | @object members hkeys _ ih =>
    have hperm := List.mergeSort_perm (members.map (Prod.map id Json.sorted)) memberLe
    rw [sorted_object]
    refine .object ?_ fun member hmember => ?_
    · exact (hperm.map _).nodup_iff.mpr (nodup_keys_map_snd Json.sorted hkeys)
    · obtain ⟨original, hmem, rfl⟩ := List.mem_map.mp (hperm.mem_iff.mp hmember)
      exact ih original hmem

/-- What is sorted stays as it is. -/
theorem IsPlain.sorted_sorted {a : Json} (ha : a.IsPlain) : a.sorted.sorted = a.sorted := by
  induction ha with
  | array _ ih =>
    rw [sorted_array, sorted_array, List.map_map, array.injEq]
    exact List.map_congr_left ih
  | @object members _ _ ih =>
    have hsorted : (members.map (Prod.map id Json.sorted)).map (Prod.map id Json.sorted) =
        members.map (Prod.map id Json.sorted) := by
      rw [List.map_map]
      exact List.map_congr_left fun member hmember => Prod.ext rfl (ih member hmember)
    rw [sorted_object, sorted_object, ← mergeSort_map_snd, mergeSort_mergeSort, hsorted]
  | _ => simp

/-- The order of the members of a plain object does not matter. -/
theorem IsPlain.same_of_perm {members members' : List (Text × Json)}
    (h : (Json.object members).IsPlain) (hperm : members.Perm members') :
    (Json.object members).Same (Json.object members') := by
  obtain ⟨hkeys, hvalues⟩ := isPlain_object_iff.mp h
  have h' : (Json.object members').IsPlain :=
    .object ((hperm.map _).nodup_iff.mp hkeys) fun member hmember =>
      hvalues member (hperm.mem_iff.mpr hmember)
  rw [h.same_iff h', sorted_object, sorted_object,
    (mergeSort_eq_iff_perm (nodup_keys_map_snd _ hkeys)).mpr (hperm.map _)]

/-- A plain value is the same as its sorted form. -/
theorem IsPlain.sorted_same {a : Json} (ha : a.IsPlain) : a.sorted.Same a := by
  rw [ha.sorted.same_iff ha]
  exact ha.sorted_sorted

end Letterhead.Json
