import Mathlib.Data.List.AList
import Mathlib.Data.List.Induction
import Mathlib.Data.List.Perm.Basic

/-!
# Grouping a list by a key

What is filed under a key keeps its order, and all keys together give the list back.
-/

namespace Grouping

open List

variable {ι κ β : Type} [DecidableEq κ]

def addTo (f : ι → κ) (g : ι → List β) (m : AList fun _ : κ => List β) (x : ι) : AList fun _ : κ => List β :=
  m.insert (f x) ((m.lookup (f x)).getD [] ++ g x)

def groupInto (f : ι → κ) (g : ι → List β) (xs : List ι) : AList fun _ : κ => List β := xs.foldl (addTo f g) ∅

variable {f : ι → κ} {g : ι → List β} {xs : List ι} {k : κ}

theorem groupInto_concat (x : ι) : groupInto f g (xs ++ [x]) = addTo f g (groupInto f g xs) x := by
  rw [groupInto, foldl_append]
  rfl

theorem lookup_groupInto (f : ι → κ) (g : ι → List β) (xs : List ι) (k : κ) :
    (groupInto f g xs).lookup k = if k ∈ xs.map f then some ((xs.filter (f · = k)).flatMap g) else none := by
  induction xs using List.reverseRecOn with
  | nil => rfl
  | append_singleton xs x ih =>
    rw [groupInto_concat, addTo]
    by_cases hk : k = f x
    · subst hk
      have hsome : ((groupInto f g xs).lookup (f x)).getD [] = (xs.filter (f · = f x)).flatMap g := by
        rw [ih]
        split
        · rfl
        · -- a key that is not there yet has no elements
          rename_i hnew
          have hnil : xs.filter (f · = f x) = [] := by
            refine filter_eq_nil_iff.2 fun y hy heq => hnew ?_
            exact mem_map.2 ⟨y, hy, of_decide_eq_true heq⟩
          rw [hnil]
          rfl
      rw [AList.lookup_insert, hsome, if_pos (by simp)]
      simp
    · have hmem : k ∈ (xs ++ [x]).map f ↔ k ∈ xs.map f := by simp [hk]
      have hne : ¬ f x = k := fun h => hk h.symm
      rw [AList.lookup_insert_ne hk, ih]
      simp only [hmem, filter_append, filter_cons, hne, decide_false, filter_nil, append_nil,
        Bool.false_eq_true, if_false]

theorem mem_entries_groupInto {l : List β} :
    ⟨k, l⟩ ∈ (groupInto f g xs).entries ↔ k ∈ xs.map f ∧ l = (xs.filter (f · = k)).flatMap g := by
  have hlook := AList.mem_lookup_iff (s := groupInto f g xs) (a := k) (b := l)
  rw [← hlook, lookup_groupInto]
  split
  · rename_i hk
    simp only [hk, true_and, Option.mem_some_iff]
    exact eq_comm
  · rename_i hk
    simp [hk]

def groups (f : ι → κ) (g : ι → List β) (xs : List ι) : List (κ × List β) :=
  (groupInto f g xs).entries.map fun entry => (entry.1, entry.2)

theorem mem_groups {entry : κ × List β} :
    entry ∈ groups f g xs ↔ entry.1 ∈ xs.map f ∧ entry.2 = (xs.filter (f · = entry.1)).flatMap g := by
  rw [← mem_entries_groupInto, groups, mem_map]
  constructor
  · rintro ⟨entry, hent, rfl⟩
    exact hent
  · intro h
    exact ⟨_, h, rfl⟩

theorem nodup_keys_groups (f : ι → κ) (g : ι → List β) (xs : List ι) : ((groups f g xs).map Prod.fst).Nodup := by
  have hkeys := (groupInto f g xs).nodupKeys
  rw [groups, map_map]
  exact hkeys

theorem mem_keys_groups : k ∈ (groups f g xs).map Prod.fst ↔ k ∈ xs.map f := by
  constructor
  · intro h
    obtain ⟨entry, hent, rfl⟩ := mem_map.1 h
    exact (mem_groups.1 hent).1
  · intro h
    exact mem_map.2 ⟨(k, (xs.filter (f · = k)).flatMap g), mem_groups.2 ⟨h, rfl⟩, rfl⟩

omit [DecidableEq κ] in
theorem two_le_length_iff {l : List κ} (h : l.Nodup) : 2 ≤ l.length ↔ ∃ a ∈ l, ∃ b ∈ l, a ≠ b := by
  rcases l with _ | ⟨a, _ | ⟨b, l⟩⟩
  · simp
  · simp
  · have hne : a ≠ b := fun heq => (nodup_cons.1 h).1 (heq ▸ mem_cons_self)
    exact ⟨fun _ => ⟨a, by simp, b, by simp, hne⟩, fun _ => by simp⟩

theorem perm_flatMap_filter (f : ι → κ) {ks : List κ} (hnd : ks.Nodup) {xs : List ι} (hmem : ∀ x ∈ xs, f x ∈ ks) :
    (ks.flatMap fun k => xs.filter (f · = k)).Perm xs := by
  induction ks generalizing xs with
  | nil =>
    have hnil : xs = [] := eq_nil_iff_forall_not_mem.2 fun x hx => not_mem_nil (hmem x hx)
    rw [hnil]
    exact .nil
  | cons k ks ih =>
    obtain ⟨hk, hks⟩ := nodup_cons.1 hnd
    have hmem' : ∀ x ∈ xs.filter (¬ f · = k), f x ∈ ks := by
      intro x hx
      obtain ⟨hx, hne⟩ := mem_filter.1 hx
      exact (mem_cons.1 (hmem x hx)).resolve_left (of_decide_eq_true hne)
    have hrest := ih hks hmem'
    have hsame : (ks.flatMap fun k' => (xs.filter (¬ f · = k)).filter (f · = k')) =
        ks.flatMap fun k' => xs.filter (f · = k') := by
      refine flatMap_congr fun k' hk' => ?_
      rw [filter_filter]
      refine filter_congr fun x _ => ?_
      by_cases hx : f x = k'
      · have hne : k' ≠ k := fun heq => hk (heq ▸ hk')
        simp [hx, hne]
      · simp [hx]
    rw [hsame] at hrest
    rw [flatMap_cons]
    refine (hrest.append_left _).trans ?_
    have hsplit := filter_append_perm (fun x => decide (f x = k)) xs
    simpa using hsplit

theorem perm_flatMap_groups (f : ι → κ) (g : ι → List β) (xs : List ι) :
    ((groups f g xs).flatMap Prod.snd).Perm (xs.flatMap g) := by
  have hgroup : (groups f g xs).flatMap Prod.snd =
      (((groups f g xs).map Prod.fst).flatMap fun k => xs.filter (f · = k)).flatMap g := by
    rw [flatMap_map, flatMap_assoc]
    exact flatMap_congr fun entry hent => (mem_groups.1 hent).2
  have hmem : ∀ x ∈ xs, f x ∈ (groups f g xs).map Prod.fst := fun x hx =>
    mem_keys_groups.2 (mem_map.2 ⟨x, hx, rfl⟩)
  rw [hgroup]
  exact (perm_flatMap_filter f (nodup_keys_groups f g xs) hmem).flatMap_right g

end Grouping
