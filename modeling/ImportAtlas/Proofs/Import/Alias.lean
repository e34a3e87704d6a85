import ImportAtlas.Import.Resolver
import ImportAtlas.Proofs.Dictionary
import Mathlib.Data.List.Infix
import Mathlib.Order.Basic

/-!
# The longest alias

The alias that replaces the beginning of a text is the longest one, whatever the order in which the
aliases are tried: it is found by looking up the beginnings of the text from the longest to the
empty one.

## Main definitions

* `Import.aliased?`: the text with its longest beginning replaced that is an alias

## Main results

* `longestAlias?_eq_none_iff`, `longestAlias?_spec`: which alias the search through all of them finds
* `expandAlias?_eq_aliased?`: it is the one found among the beginnings of the text
-/

namespace ImportAtlas

namespace FileIndex

/-- The alias to keep of the best one so far and the next one. -/
def longerAlias (best : Option (String × String)) (entry : String × String) :
    Option (String × String) :=
  match best with
  | none => some entry
  | some b => if b.1.utf8ByteSize ≤ entry.1.utf8ByteSize then some entry else some b

theorem longestAlias?_eq (aliases : Dictionary String) (text : String) :
    longestAlias? aliases text =
      (aliases.entries.filter fun entry => entry.1.toList.isPrefixOf text.toList).foldl
        longerAlias none :=
  rfl

/-- Of the best alias so far and some others, one that is at least as long as all of them stays. -/
theorem foldl_longerAlias (entries : List (String × String)) (first : String × String) :
    ∃ found, entries.foldl longerAlias (some first) = some found ∧ found ∈ first :: entries ∧
      ∀ entry ∈ first :: entries, entry.1.utf8ByteSize ≤ found.1.utf8ByteSize := by
  -- The best alias so far is generalized; it is replaced by any that is not shorter.
  induction entries generalizing first with
  | nil => exact ⟨first, rfl, List.mem_cons_self, fun entry he => by simp_all⟩
  | cons second entries ih =>
    rw [List.foldl_cons, longerAlias]
    split
    · next hle =>
      obtain ⟨found, hf, hm, hlong⟩ := ih second
      refine ⟨found, hf, List.mem_cons_of_mem _ hm, List.forall_mem_cons.mpr ⟨?_, hlong⟩⟩
      exact hle.trans (hlong second List.mem_cons_self)
    · next hlt =>
      obtain ⟨found, hf, hm, hlong⟩ := ih first
      have hfirst := hlong first List.mem_cons_self
      refine ⟨found, hf, ?_, List.forall_mem_cons.mpr ⟨hfirst, List.forall_mem_cons.mpr ⟨?_, ?_⟩⟩⟩
      · exact (List.mem_cons.mp hm).elim (fun he => he ▸ List.mem_cons_self)
          fun he => List.mem_cons_of_mem _ (List.mem_cons_of_mem _ he)
      · exact (Nat.le_of_not_le hlt).trans hfirst
      · exact fun entry he => hlong entry (List.mem_cons_of_mem _ he)

variable {aliases : Dictionary String} {text : String}

theorem mem_beginnings_iff (aliases : Dictionary String) (text : String)
    (entry : String × String) :
    entry ∈ aliases.entries.filter (fun entry => entry.1.toList.isPrefixOf text.toList) ↔
      entry ∈ aliases.entries ∧ entry.1.toList <+: text.toList := by
  rw [List.mem_filter, List.isPrefixOf_iff_prefix]

theorem longestAlias?_eq_none_iff :
    longestAlias? aliases text = none ↔
      ∀ entry ∈ aliases.entries, ¬entry.1.toList <+: text.toList := by
  rw [longestAlias?_eq]
  constructor
  · intro hnone entry hm hp
    cases hf : aliases.entries.filter fun entry => entry.1.toList.isPrefixOf text.toList with
    | nil => exact List.not_mem_nil (hf ▸ (mem_beginnings_iff aliases text entry).mpr ⟨hm, hp⟩)
    | cons first entries =>
      obtain ⟨found, hfound, -⟩ := foldl_longerAlias entries first
      rw [hf] at hnone
      cases hfound.symm.trans hnone
  · intro hnone
    rw [List.filter_eq_nil_iff.mpr]
    · rfl
    · intro entry hm hp
      exact hnone entry hm (List.isPrefixOf_iff_prefix.mp hp)

/-- **The alias found** is a beginning of the text, and no other one is longer. -/
theorem longestAlias?_spec {found : String × String}
    (h : longestAlias? aliases text = some found) :
    found ∈ aliases.entries ∧ found.1.toList <+: text.toList ∧
      ∀ entry ∈ aliases.entries, entry.1.toList <+: text.toList →
        entry.1.utf8ByteSize ≤ found.1.utf8ByteSize := by
  rw [longestAlias?_eq] at h
  have hmem := mem_beginnings_iff aliases text
  cases hf : aliases.entries.filter fun entry => entry.1.toList.isPrefixOf text.toList with
  | nil =>
    rw [hf] at h
    cases h
  | cons first entries =>
    rw [hf] at h hmem
    obtain ⟨other, ho, hm, hlong⟩ := foldl_longerAlias entries first
    obtain rfl := Option.some.inj (ho.symm.trans h)
    obtain ⟨hentry, hprefix⟩ := (hmem other).mp hm
    exact ⟨hentry, hprefix, fun entry he hp => hlong entry ((hmem entry).mpr ⟨he, hp⟩)⟩

end FileIndex

namespace Import

/-- The text with its longest beginning that is an alias replaced. -/
def aliased? (aliases : Dictionary String) (text : String) : Option String :=
  (List.range (text.toList.length + 1)).reverse.findSome? fun length =>
    (aliases.get? (String.ofList (text.toList.take length))).map fun replacement =>
      replacement ++ String.ofList (text.toList.drop length)

/-- The first hit among numbers that are tried from the largest on. -/
theorem findSome?_reverse_range {α : Type} (f : Nat → Option α) {bound number : Nat} {value : α}
    (hlt : number < bound) (hf : f number = some value)
    (hnone : ∀ larger, number < larger → larger < bound → f larger = none) :
    (List.range bound).reverse.findSome? f = some value := by
  induction bound with
  | zero => exact absurd hlt (Nat.not_lt_zero _)
  | succ bound ih =>
    rw [List.range_succ, List.reverse_append, List.reverse_singleton, List.singleton_append,
      List.findSome?_cons]
    rcases Nat.lt_succ_iff_lt_or_eq.mp hlt with hlt | rfl
    · rw [hnone bound hlt (Nat.lt_succ_self _)]
      exact ih hlt fun larger h h' => hnone larger h (h'.trans (Nat.lt_succ_self _))
    · rw [hf]

/-- A longer beginning of a text has more bytes. -/
theorem utf8ByteSize_lt_of_prefix {a b : String} (hp : a.toList <+: b.toList)
    (hlt : a.toList.length < b.toList.length) : a.utf8ByteSize < b.utf8ByteSize := by
  obtain ⟨rest, hrest⟩ := hp
  have hb : b = a ++ String.ofList rest := by
    rw [← String.toList_inj, String.toList_append, String.toList_ofList]
    exact hrest.symm
  have hne : String.ofList rest ≠ "" := by
    intro he
    rw [hb, he, String.append_empty] at hlt
    exact lt_irrefl _ hlt
  have hpos := Nat.pos_of_ne_zero (mt String.utf8ByteSize_eq_zero_iff.mp hne)
  rw [hb, String.utf8ByteSize_append]
  exact Nat.lt_add_of_pos_right hpos

end Import

open Import

/-- **Expanding a text replaces its longest beginning that is an alias.** -/
theorem FileIndex.expandAlias?_eq_aliased? (index : FileIndex) (text : String) :
    index.expandAlias? text = aliased? index.rules.aliases text := by
  have htake : ∀ length, (String.ofList (text.toList.take length)).toList <+: text.toList := by
    intro length
    rw [String.toList_ofList]
    exact List.take_prefix _ _
  unfold expandAlias? aliased?
  cases hlong : longestAlias? index.rules.aliases text with
  -- No beginning is an alias, so the search through the beginnings finds none either.
  | none =>
    have hnone := longestAlias?_eq_none_iff.mp hlong
    refine (List.findSome?_eq_none_iff.mpr fun length _ => ?_).symm
    rw [Option.map_eq_none_iff, Option.eq_none_iff_forall_ne_some]
    intro replacement hget
    exact hnone _ ((Dictionary.get?_eq_some_iff _ _ _).mp hget) (htake length)
  | some found =>
    obtain ⟨start, replacement⟩ := found
    obtain ⟨hmem, hprefix, hmax⟩ := longestAlias?_spec hlong
    have htext : text.toList.take start.toList.length = start.toList :=
      (List.prefix_iff_eq_take.mp hprefix).symm
    refine (findSome?_reverse_range _ (Nat.lt_succ_of_le hprefix.length_le) ?_ ?_).symm
    · rw [htext, String.ofList_toList, (Dictionary.get?_eq_some_iff _ _ _).mpr hmem]
      rfl
    · intro length hlt hbound
      rw [Option.map_eq_none_iff, Option.eq_none_iff_forall_ne_some]
      intro other hget
      -- An alias that is a longer beginning would have more bytes than the longest one.
      refine (hmax _ ((Dictionary.get?_eq_some_iff _ _ _).mp hget) (htake length)).not_gt ?_
      refine utf8ByteSize_lt_of_prefix ?_ ?_
      · rw [String.toList_ofList, ← htext]
        exact List.take_prefix_take_left hlt.le
      · rw [String.toList_ofList, List.length_take]
        omega

end ImportAtlas
