import Mathlib.Data.List.Nodup
import VibeScript.Json.Basic

/-!
JSON values with numbers of any kind, as a text spells them.

An object may name a member more than once.  It stands for the object in which the first of
them has the value of the last (`JsonTree.merged`), and that changes nothing else about what
is done to the numbers (`JsonTree.merged_map`).
-/

namespace VibeScript

section Merging

variable {α β : Type}

/-- The members with one of them set.  A key that is there already keeps its place. -/
def setMember (members : List (Text × α)) (key : Text) (value : α) : List (Text × α) :=
  match members with
  | [] => [(key, value)]
  | (k, v) :: rest => if k = key then (k, value) :: rest else (k, v) :: setMember rest key value

/-- The members as they are set one after the other. -/
def mergeMembers (members : List (Text × α)) : List (Text × α) :=
  members.foldl (fun done member => setMember done member.1 member.2) []

theorem Members.set_eq_setMember (members : Members) (key : Text) (value : Json) :
    members.set key value = setMember members key value := by
  induction members with
  | nil => rfl
  | cons first rest ih => rw [set, setMember, ih]

theorem setMember_map (f : α → β) (members : List (Text × α)) (key : Text) (value : α) :
    setMember (members.map (Prod.map id f)) key (f value) =
      (setMember members key value).map (Prod.map id f) := by
  induction members with
  | nil => rfl
  | cons first rest ih =>
      obtain ⟨k, v⟩ := first
      rw [List.map_cons, Prod.map_apply, id, setMember, setMember]
      split
      · rfl
      · rw [ih]
        rfl

theorem foldl_setMember_map (f : α → β) (members done : List (Text × α)) :
    (members.map (Prod.map id f)).foldl (fun done member => setMember done member.1 member.2)
        (done.map (Prod.map id f)) =
      (members.foldl (fun done member => setMember done member.1 member.2) done).map
        (Prod.map id f) := by
  induction members generalizing done with
  | nil => rfl
  | cons first rest ih =>
      rw [List.map_cons, List.foldl_cons, List.foldl_cons, ← ih, ← setMember_map]
      rfl

theorem mergeMembers_map (f : α → β) (members : List (Text × α)) :
    mergeMembers (members.map (Prod.map id f)) = (mergeMembers members).map (Prod.map id f) :=
  foldl_setMember_map f members []

theorem keys_setMember (members : List (Text × α)) (key : Text) (value : α) :
    (setMember members key value).map Prod.fst =
      if key ∈ members.map Prod.fst then members.map Prod.fst
      else members.map Prod.fst ++ [key] := by
  induction members with
  | nil => simp [setMember]
  | cons first rest ih =>
      by_cases h : first.1 = key
      · simp [setMember, h]
      · have hne : key ≠ first.1 := Ne.symm h
        simp only [setMember, h, ↓reduceIte, List.map_cons, ih, List.mem_cons, hne, false_or]
        split <;> simp

theorem nodup_keys_setMember {members : List (Text × α)} (h : (members.map Prod.fst).Nodup)
    (key : Text) (value : α) : ((setMember members key value).map Prod.fst).Nodup := by
  rw [keys_setMember]
  split
  · exact h
  · next hnew =>
      rw [← List.concat_eq_append, List.nodup_concat]
      exact ⟨hnew, h⟩

/-- Merged members have distinct keys. -/
theorem nodup_keys_mergeMembers (members : List (Text × α)) :
    ((mergeMembers members).map Prod.fst).Nodup := by
  suffices h : ∀ done : List (Text × α), (done.map Prod.fst).Nodup →
      ((members.foldl (fun done member => setMember done member.1 member.2) done).map
        Prod.fst).Nodup by
    exact h [] List.nodup_nil
  induction members with
  | nil => exact fun _ hdone => hdone
  | cons first rest ih =>
      intro done hdone
      exact ih _ (nodup_keys_setMember hdone first.1 first.2)

theorem setMember_of_not_mem {members : List (Text × α)} {key : Text}
    (h : key ∉ members.map Prod.fst) (value : α) :
    setMember members key value = members ++ [(key, value)] := by
  induction members with
  | nil => rfl
  | cons first rest ih =>
      rw [List.map_cons, List.mem_cons, not_or] at h
      rw [setMember, if_neg (Ne.symm h.1), ih h.2, List.cons_append]

/-- Members with distinct keys stay as they are. -/
theorem mergeMembers_of_nodup {members : List (Text × α)} (h : (members.map Prod.fst).Nodup) :
    mergeMembers members = members := by
  suffices hdone : ∀ done : List (Text × α), ((done ++ members).map Prod.fst).Nodup →
      members.foldl (fun done member => setMember done member.1 member.2) done =
        done ++ members by
    exact hdone [] h
  clear h
  induction members with
  | nil => exact fun done _ => (List.append_nil done).symm
  | cons first rest ih =>
      intro done hkeys
      have hnew : first.1 ∉ done.map Prod.fst := by
        rw [List.map_append, List.nodup_append] at hkeys
        exact fun hmem => hkeys.2.2 first.1 hmem first.1 List.mem_cons_self rfl
      have hsplit : done ++ first :: rest = (done ++ [first]) ++ rest := by simp
      rw [List.foldl_cons, setMember_of_not_mem hnew, hsplit]
      exact ih _ (hsplit ▸ hkeys)

theorem mergeMembers_mergeMembers (members : List (Text × α)) :
    mergeMembers (mergeMembers members) = mergeMembers members :=
  mergeMembers_of_nodup (nodup_keys_mergeMembers members)

end Merging

/-- A JSON value whose numbers are of some kind, with the members of its objects as they are
spelled. -/
inductive JsonTree (ν : Type) where
  | null
  | bool (value : Bool)
  | number (n : ν)
  | str (value : Text)
  | arr (elements : List (JsonTree ν))
  | obj (members : List (Text × JsonTree ν))

section Trees

variable {ν μ : Type}

mutual

/-- The value with something done to each of its numbers. -/
def JsonTree.map (f : ν → μ) : JsonTree ν → JsonTree μ
  | .null => .null
  | .bool value => .bool value
  | .number n => .number (f n)
  | .str value => .str value
  | .arr elements => .arr (mapElements f elements)
  | .obj members => .obj (mapMembers f members)

def mapElements (f : ν → μ) : List (JsonTree ν) → List (JsonTree μ)
  | [] => []
  | x :: rest => x.map f :: mapElements f rest

def mapMembers (f : ν → μ) : List (Text × JsonTree ν) → List (Text × JsonTree μ)
  | [] => []
  | (key, value) :: rest => (key, value.map f) :: mapMembers f rest

end

mutual

/-- The numbers in a value, in order. -/
def JsonTree.numbers : JsonTree ν → List ν
  | .number n => [n]
  | .arr elements => elementsNumbers elements
  | .obj members => membersNumbers members
  | _ => []

def elementsNumbers : List (JsonTree ν) → List ν
  | [] => []
  | x :: rest => x.numbers ++ elementsNumbers rest

def membersNumbers : List (Text × JsonTree ν) → List ν
  | [] => []
  | (_, value) :: rest => value.numbers ++ membersNumbers rest

end

mutual

/-- What a value stands for: of the members of an object with one key the last one counts, at
the place of the first. -/
def JsonTree.merged : JsonTree ν → JsonTree ν
  | .arr elements => .arr (mergedElements elements)
  | .obj members => .obj (mergeMembers (mergedMembers members))
  | value => value

def mergedElements : List (JsonTree ν) → List (JsonTree ν)
  | [] => []
  | x :: rest => x.merged :: mergedElements rest

def mergedMembers : List (Text × JsonTree ν) → List (Text × JsonTree ν)
  | [] => []
  | (key, value) :: rest => (key, value.merged) :: mergedMembers rest

end

/-- The member of an object with the given key. -/
def JsonTree.member? (tree : JsonTree ν) (key : Text) : Option (JsonTree ν) :=
  match tree with
  | .obj members => (members.find? (·.1 = key)).map (·.2)
  | _ => none

theorem mapMembers_eq_map (f : ν → μ) (members : List (Text × JsonTree ν)) :
    mapMembers f members = members.map (Prod.map id (JsonTree.map f)) := by
  induction members with
  | nil => rfl
  | cons first rest ih => rw [mapMembers, ih, List.map_cons, Prod.map, id]

theorem mergedMembers_eq_map (members : List (Text × JsonTree ν)) :
    mergedMembers members = members.map (Prod.map id JsonTree.merged) := by
  induction members with
  | nil => rfl
  | cons first rest ih => rw [mergedMembers, ih, List.map_cons, Prod.map, id]

mutual

/-- Two ways to treat numbers give the same value exactly if they agree on its numbers. -/
theorem JsonTree.map_eq_map_iff (f g : ν → μ) : (tree : JsonTree ν) →
    (tree.map f = tree.map g ↔ ∀ n ∈ tree.numbers, f n = g n)
  | .null | .bool _ | .str _ => by simp [JsonTree.map, JsonTree.numbers]
  | .number n => by simp [JsonTree.map, JsonTree.numbers]
  | .arr elements => by
      rw [JsonTree.map, JsonTree.map, JsonTree.numbers, JsonTree.arr.injEq]
      exact mapElements_eq_mapElements_iff f g elements
  | .obj members => by
      rw [JsonTree.map, JsonTree.map, JsonTree.numbers, JsonTree.obj.injEq]
      exact mapMembers_eq_mapMembers_iff f g members

theorem mapElements_eq_mapElements_iff (f g : ν → μ) : (elements : List (JsonTree ν)) →
    (mapElements f elements = mapElements g elements ↔
      ∀ n ∈ elementsNumbers elements, f n = g n)
  | [] => by simp [mapElements, elementsNumbers]
  | x :: rest => by
      rw [mapElements, mapElements, elementsNumbers, List.cons.injEq, List.forall_mem_append,
        x.map_eq_map_iff f g, mapElements_eq_mapElements_iff f g rest]

theorem mapMembers_eq_mapMembers_iff (f g : ν → μ) : (members : List (Text × JsonTree ν)) →
    (mapMembers f members = mapMembers g members ↔ ∀ n ∈ membersNumbers members, f n = g n)
  | [] => by simp [mapMembers, membersNumbers]
  | (key, value) :: rest => by
      rw [mapMembers, mapMembers, membersNumbers, List.cons.injEq, List.forall_mem_append,
        Prod.mk.injEq, value.map_eq_map_iff f g, mapMembers_eq_mapMembers_iff f g rest]
      simp

end

mutual

theorem JsonTree.merged_map (f : ν → μ) : (tree : JsonTree ν) →
    (tree.map f).merged = tree.merged.map f
  | .null | .bool _ | .number _ | .str _ => rfl
  | .arr elements => congrArg JsonTree.arr (mergedElements_map f elements)
  | .obj members => by
      rw [JsonTree.map, JsonTree.merged, JsonTree.merged, JsonTree.map, mergedMembers_map,
        mapMembers_eq_map, mapMembers_eq_map, mergeMembers_map]

theorem mergedElements_map (f : ν → μ) : (elements : List (JsonTree ν)) →
    mergedElements (mapElements f elements) = mapElements f (mergedElements elements)
  | [] => rfl
  | x :: rest => congrArg₂ List.cons (x.merged_map f) (mergedElements_map f rest)

theorem mergedMembers_map (f : ν → μ) : (members : List (Text × JsonTree ν)) →
    mergedMembers (mapMembers f members) = mapMembers f (mergedMembers members)
  | [] => rfl
  | (key, value) :: rest => congrArg₂ List.cons (congrArg (Prod.mk key) (value.merged_map f))
      (mergedMembers_map f rest)

end

mutual

theorem JsonTree.merged_merged : (tree : JsonTree ν) → tree.merged.merged = tree.merged
  | .null | .bool _ | .number _ | .str _ => rfl
  | .arr elements => congrArg JsonTree.arr (mergedElements_mergedElements elements)
  | .obj members => by
      have hmembers := mergedMembers_mergedMembers members
      rw [JsonTree.merged, JsonTree.merged, mergedMembers_eq_map (mergeMembers _),
        ← mergeMembers_map, ← mergedMembers_eq_map, hmembers, mergeMembers_mergeMembers]

theorem mergedElements_mergedElements : (elements : List (JsonTree ν)) →
    mergedElements (mergedElements elements) = mergedElements elements
  | [] => rfl
  | x :: rest => congrArg₂ List.cons x.merged_merged (mergedElements_mergedElements rest)

theorem mergedMembers_mergedMembers : (members : List (Text × JsonTree ν)) →
    mergedMembers (mergedMembers members) = mergedMembers members
  | [] => rfl
  | (key, value) :: rest => congrArg₂ List.cons (congrArg (Prod.mk key) value.merged_merged)
      (mergedMembers_mergedMembers rest)

end

theorem JsonTree.member?_map (f : ν → μ) (tree : JsonTree ν) (key : Text) :
    (tree.map f).member? key = (tree.member? key).map (JsonTree.map f) := by
  cases tree with
  | obj members =>
      rw [JsonTree.map, JsonTree.member?, JsonTree.member?, mapMembers_eq_map, List.find?_map,
        Option.map_map, Option.map_map]
      rfl
  | _ => rfl

/-- Everything in a merged value is merged. -/
theorem JsonTree.merged_of_member? {tree x : JsonTree ν} {key : Text}
    (h : tree.merged.member? key = some x) : x.merged = x := by
  cases tree with
  | obj members =>
      have hmerged := (JsonTree.obj members).merged_merged
      rw [JsonTree.merged] at h hmerged
      generalize hvalue : mergeMembers (mergedMembers members) = merged at h hmerged
      have hkeys : ((mergedMembers merged).map Prod.fst).Nodup := by
        rw [mergedMembers_eq_map, List.map_map, ← hvalue]
        exact nodup_keys_mergeMembers (mergedMembers members)
      rw [JsonTree.merged, mergeMembers_of_nodup hkeys, JsonTree.obj.injEq,
        mergedMembers_eq_map] at hmerged
      obtain ⟨⟨name, value⟩, hfind, rfl⟩ := Option.map_eq_some_iff.mp h
      have hself := List.map_inj_left.mp (hmerged.trans (List.map_id merged).symm)
        (name, value) (List.mem_of_find?_eq_some hfind)
      exact congrArg Prod.snd hself
  | _ => cases h

end Trees

end VibeScript
