import Mathlib.Data.List.Induction
import Mathlib.Data.List.Nodup
import ParserCombinators.Json.Value

/-!
# Members of an object

Pairs with repeated keys are merged: a key stands where it came first, with the value that came
last. Keys and lookups determine the merged pairs, and these are the members of the object.
-/

namespace ParserCombinators.Json

variable {α : Type} {members pairs merged : List (CodePoints × α)} {key : CodePoints}

/-- Each key stands where it came first, with the value that came last. -/
structure IsMerged (pairs merged : List (CodePoints × α)) : Prop where
  keys : merged.map Prod.fst = (pairs.map Prod.fst).eraseDups
  lookup : ∀ key, merged.lookup key = pairs.reverse.lookup key

/-! ## Keys -/

theorem eraseDups_append_of_mem {keys : List CodePoints} (hkey : key ∈ keys) :
    (keys ++ [key]).eraseDups = keys.eraseDups := by
  simp [List.eraseDups_append, List.removeAll, hkey]

theorem eraseDups_append_of_not_mem {keys : List CodePoints} (hkey : key ∉ keys) :
    (keys ++ [key]).eraseDups = keys.eraseDups ++ [key] := by
  simp [List.eraseDups_append, List.removeAll, List.eraseDups_cons, hkey]

theorem nodup_eraseDups (keys : List CodePoints) : keys.eraseDups.Nodup := by
  induction keys using List.reverseRecOn with
  | nil => exact List.nodup_nil
  | append_singleton keys key ih =>
    by_cases hkey : key ∈ keys
    · rwa [eraseDups_append_of_mem hkey]
    · rw [eraseDups_append_of_not_mem hkey]
      refine ih.append (List.nodup_singleton key) ?_
      simpa using hkey

/-! ## One more member -/

theorem map_fst_putMember_of_mem (hkey : key ∈ members.map Prod.fst) (value : α) :
    (putMember members key value).map Prod.fst = members.map Prod.fst := by
  induction members with
  | nil => cases hkey
  | cons member rest ih =>
    obtain ⟨other, old⟩ := member
    by_cases hsame : other = key
    · rw [putMember, if_pos hsame]
      rfl
    · have hrest : key ∈ rest.map Prod.fst :=
        (List.mem_cons.1 hkey).resolve_left (Ne.symm hsame)
      rw [putMember, if_neg hsame, List.map_cons, ih hrest]
      rfl

theorem putMember_of_not_mem (hkey : key ∉ members.map Prod.fst) (value : α) :
    putMember members key value = members ++ [(key, value)] := by
  induction members with
  | nil => rfl
  | cons member rest ih =>
    rw [List.map_cons, List.mem_cons, not_or] at hkey
    rw [putMember, if_neg (Ne.symm hkey.1), ih hkey.2]
    rfl

theorem lookup_cons_ite (key first : CodePoints) (value : α) (rest : List (CodePoints × α)) :
    ((first, value) :: rest).lookup key = if key = first then some value else rest.lookup key := by
  rw [List.lookup_cons]
  cases hsame : key == first with
  | true => rw [if_pos (eq_of_beq hsame)]
  | false => rw [if_neg (ne_of_beq_false hsame)]

theorem lookup_putMember (members : List (CodePoints × α)) (key other : CodePoints) (value : α) :
    (putMember members key value).lookup other =
      if other = key then some value else members.lookup other := by
  induction members with
  | nil => exact lookup_cons_ite ..
  | cons member rest ih =>
    obtain ⟨first, old⟩ := member
    by_cases hsame : first = key
    · subst hsame
      by_cases hother : other = first <;> simp [putMember, lookup_cons_ite, hother]
    · rw [putMember, if_neg hsame, lookup_cons_ite, lookup_cons_ite, ih]
      by_cases hother : other = first <;> simp [hother, hsame]

theorem membersOf_append_singleton (pairs : List (CodePoints × α)) (pair : CodePoints × α) :
    membersOf (pairs ++ [pair]) = putMember (membersOf pairs) pair.1 pair.2 :=
  List.foldl_append ..

theorem isMerged_membersOf (pairs : List (CodePoints × α)) : IsMerged pairs (membersOf pairs) := by
  induction pairs using List.reverseRecOn with
  | nil => exact ⟨rfl, fun _ ↦ rfl⟩
  | append_singleton pairs pair ih =>
    rw [membersOf_append_singleton]
    constructor
    · have hmem : pair.1 ∈ (membersOf pairs).map Prod.fst ↔ pair.1 ∈ pairs.map Prod.fst := by
        rw [ih.keys, List.mem_eraseDups]
      rw [List.map_append, List.map_singleton]
      by_cases hkey : pair.1 ∈ pairs.map Prod.fst
      · rw [map_fst_putMember_of_mem (hmem.2 hkey), eraseDups_append_of_mem hkey, ih.keys]
      · rw [putMember_of_not_mem (mt hmem.1 hkey), eraseDups_append_of_not_mem hkey, ← ih.keys,
          List.map_append]
        rfl
    · intro key
      rw [lookup_putMember, ih.lookup, List.reverse_append, List.reverse_singleton,
        List.singleton_append, lookup_cons_ite]

theorem lookup_eq_none {members : List (CodePoints × α)} {key : CodePoints}
    (hkey : key ∉ members.map Prod.fst) : members.lookup key = none := by
  rw [List.lookup_eq_none_iff]
  intro member hmember
  rw [bne_iff_ne]
  rintro rfl
  exact hkey (List.mem_map_of_mem hmember)

/-- Members with distinct keys are known by their keys and by what is looked up in them. -/
theorem eq_of_lookup {members members' : List (CodePoints × α)}
    (hkeys : members.map Prod.fst = members'.map Prod.fst) (hnodup : (members.map Prod.fst).Nodup)
    (hlookup : ∀ key, members.lookup key = members'.lookup key) : members = members' := by
  induction members generalizing members' with
  | nil => exact (List.map_eq_nil_iff.1 hkeys.symm).symm
  | cons member rest ih =>
    obtain ⟨key, value⟩ := member
    cases members' with
    | nil => cases hkeys
    | cons member' rest' =>
      obtain ⟨key', value'⟩ := member'
      obtain ⟨rfl, hrestKeys⟩ : key = key' ∧ rest.map Prod.fst = rest'.map Prod.fst :=
        List.cons.inj hkeys
      obtain ⟨hnew, hnodup⟩ := List.nodup_cons.1 hnodup
      have hvalue := hlookup key
      rw [lookup_cons_ite, lookup_cons_ite, if_pos rfl, if_pos rfl] at hvalue
      obtain rfl := Option.some.inj hvalue
      rw [ih hrestKeys hnodup fun other ↦ ?_]
      by_cases hsame : other = key
      · rw [hsame, lookup_eq_none hnew, lookup_eq_none (hrestKeys ▸ hnew)]
      · have hother := hlookup other
        rwa [lookup_cons_ite, lookup_cons_ite, if_neg hsame, if_neg hsame] at hother

theorem IsMerged.nodup (hmerged : IsMerged pairs merged) : (merged.map Prod.fst).Nodup :=
  hmerged.keys ▸ nodup_eraseDups _

/-- Pairs can be merged in one way only. -/
theorem IsMerged.eq_membersOf (hmerged : IsMerged pairs merged) : merged = membersOf pairs := by
  have hmembersOf := isMerged_membersOf pairs
  exact eq_of_lookup (hmerged.keys.trans hmembersOf.keys.symm) hmerged.nodup
    fun key ↦ (hmerged.lookup key).trans (hmembersOf.lookup key).symm

/-- Members with distinct keys stay as they are. -/
theorem isMerged_of_nodup (hkeys : (members.map Prod.fst).Nodup) : IsMerged members members := by
  have hsame : membersOf members = members := by
    induction members using List.reverseRecOn with
    | nil => rfl
    | append_singleton members member ih =>
      rw [List.map_append, List.nodup_append] at hkeys
      have hnew : member.1 ∉ members.map Prod.fst :=
        fun hmem ↦ hkeys.2.2 _ hmem _ List.mem_cons_self rfl
      rw [membersOf_append_singleton, ih hkeys.1, putMember_of_not_mem hnew]
  have hmerged := isMerged_membersOf members
  rwa [hsame] at hmerged

end ParserCombinators.Json
