import Mathlib.Data.List.Nodup
import Mathlib.Data.List.Perm.Basic

/-!
# Entries under distinct names

Objects and tables are lists of entries.  When no name occurs twice, an entry is
found under its name wherever it stands, so a lookup does not depend on the order
of the entries.
-/

namespace FpgaPlacer.NamedEntries

variable {α : Type} {name : String} {value : α} {entries others : List (String × α)}

theorem lookup_of_mem (distinct : (entries.map Prod.fst).Nodup)
    (member : (name, value) ∈ entries) : entries.lookup name = some value := by
  obtain ⟨before, after, split⟩ := List.append_of_mem member
  rw [split, List.map_append, List.map_cons] at distinct
  obtain ⟨-, -, apart⟩ := List.nodup_append.mp distinct
  refine List.lookup_eq_some_iff.mpr ⟨before, after, split, fun earlier listed => ?_⟩
  have different := apart earlier.1 (List.mem_map_of_mem listed) name List.mem_cons_self
  simpa using different.symm

theorem lookup_eq_none_iff : entries.lookup name = none ↔ name ∉ entries.map Prod.fst := by
  simp only [List.lookup_eq_none_iff, bne_iff_ne, List.mem_map, not_exists, not_and]
  exact forall₂_congr (fun entry listed => ne_comm)

theorem mem_of_lookup (found : entries.lookup name = some value) : (name, value) ∈ entries := by
  obtain ⟨before, after, split, -⟩ := List.lookup_eq_some_iff.mp found
  exact split ▸ List.mem_append_right _ List.mem_cons_self

theorem lookup_eq_some_iff (distinct : (entries.map Prod.fst).Nodup) :
    entries.lookup name = some value ↔ (name, value) ∈ entries :=
  ⟨mem_of_lookup, lookup_of_mem distinct⟩

theorem lookup_perm (distinct : (entries.map Prod.fst).Nodup) (reordered : entries.Perm others)
    (name : String) : entries.lookup name = others.lookup name := by
  have otherDistinct : (others.map Prod.fst).Nodup := (reordered.map Prod.fst).nodup distinct
  refine Option.ext (fun value => ?_)
  rw [lookup_eq_some_iff distinct, lookup_eq_some_iff otherDistinct]
  exact reordered.mem_iff

variable {names : List String} {values : List α}

theorem map_fst_zip_sublist : ((names.zip values).map Prod.fst).Sublist names := by
  rw [List.zip_eq_zip_take_min, List.map_fst_zip (by simp)]
  exact List.take_sublist _ _

theorem nodup_zip (distinct : names.Nodup) : ((names.zip values).map Prod.fst).Nodup :=
  distinct.sublist map_fst_zip_sublist

theorem lookup_zip (distinct : names.Nodup) (listed : (name, value) ∈ names.zip values) :
    (names.zip values).lookup name = some value :=
  lookup_of_mem (nodup_zip distinct) listed

end FpgaPlacer.NamedEntries
