import Mathlib.Algebra.BigOperators.Group.List.Basic
import FpgaPlacer.Proofs.Mixing
import FpgaPlacer.Proofs.ReachableLayouts

/-!
# The checksum of unordered content

A table lists its entries by handle, but the checksum must not depend on that.
A *listing* writes out every unordered collection of a design in some order,
and its checksum is computed in the order written.  Hashes of entries are added
up, so two listings that differ in the order alone have the same checksum.  The
users of a net are hashed in a row, so their order does count.
-/

namespace FpgaPlacer

namespace Entries

variable {kind : HandleKind} {α : Type}

/-- No handle has two entries. -/
def Distinct (entries : List (Handle kind × α)) : Prop :=
  (entries.map Prod.fst).Nodup

/-- The entries are those of a map filled by storing and removing values.  What
is stored replaces what was there, and the map may reorder its entries at any
time. -/
inductive Filled : List (Handle kind × α) → Prop where
  | empty : Filled []
  | store {before after : List (Handle kind × α)} (filled : Filled before)
      (key : Handle kind) (value : α)
      (listed : after.Perm ((key, value) :: erase key before)) : Filled after
  | remove {before after : List (Handle kind × α)} (filled : Filled before)
      (key : Handle kind) (listed : after.Perm (erase key before)) : Filled after

/-- The same entries in any order, with related values. -/
def Reorders (related : α → α → Prop) (left right : List (Handle kind × α)) :
    Prop :=
  ∃ middle, left.Perm middle ∧
    List.Forall₂ (fun old new => old.1 = new.1 ∧ related old.2 new.2) middle right

theorem erase_eq_filter (key : Handle kind) (entries : List (Handle kind × α)) :
    erase key entries = entries.filter (fun entry => entry.1 ≠ key) := by
  induction entries with
  | nil => rfl
  | cons entry rest induction =>
      by_cases same : entry.1 = key <;> simp [erase, same, induction]

theorem Distinct.perm {left right : List (Handle kind × α)}
    (distinct : Distinct right) (permutation : left.Perm right) : Distinct left :=
  (permutation.map Prod.fst).nodup_iff.mpr distinct

theorem Distinct.erase {entries : List (Handle kind × α)}
    (distinct : Distinct entries) (key : Handle kind) :
    Distinct (erase key entries) := by
  rw [erase_eq_filter]
  exact distinct.sublist (List.filter_sublist.map Prod.fst)

theorem Filled.distinct {entries : List (Handle kind × α)}
    (filled : Filled entries) : Distinct entries := by
  induction filled with
  | empty => exact List.nodup_nil
  | store filled key value listed induction =>
      apply Distinct.perm _ listed
      refine List.nodup_cons.mpr ⟨?_, induction.erase key⟩
      simp [erase_eq_filter]
  | remove filled key listed induction => exact (induction.erase key).perm listed

theorem Sorted.distinct {entries : List (Handle kind × α)}
    (sorted : Sorted entries) : Distinct entries := by
  rw [Distinct, List.Nodup, List.pairwise_map]
  exact sorted.imp Handle.ne_of_lt

theorem Distinct.get?_eq_some_iff {entries : List (Handle kind × α)}
    (distinct : Distinct entries) {key : Handle kind} {value : α} :
    get? key entries = some value ↔ (key, value) ∈ entries := by
  refine ⟨mem_of_get?_eq_some, ?_⟩
  intro member
  induction entries with
  | nil => cases member
  | cons entry rest induction =>
      obtain ⟨fresh, restDistinct⟩ := List.nodup_cons.mp distinct
      obtain here | later := List.mem_cons.mp member
      · simp [← here, get?]
      · have different : entry.1 ≠ key := by
          intro same
          exact fresh (same ▸ List.mem_map_of_mem later)
        rw [get?, if_neg different]
        exact induction restDistinct later

theorem Distinct.filled {entries : List (Handle kind × α)}
    (distinct : Distinct entries) : Filled entries := by
  induction entries with
  | nil => exact .empty
  | cons entry rest induction =>
      obtain ⟨fresh, restDistinct⟩ := List.nodup_cons.mp distinct
      have unerased : Entries.erase entry.1 rest = rest := by
        rw [erase_eq_filter, List.filter_eq_self]
        intro other member
        apply decide_eq_true
        intro same
        exact fresh (same ▸ List.mem_map_of_mem member)
      apply (induction restDistinct).store entry.1 entry.2
      rw [unerased]

/-- Two maps store related values under the same handles. -/
structure Corresponds (related : α → α → Prop)
    (left right : List (Handle kind × α)) : Prop where
  keys : ∀ key, (get? key left).isSome = (get? key right).isSome
  values : ∀ {key old new}, get? key left = some old → get? key right = some new →
    related old new

/-- The entry of another map under the handle of an entry. -/
def counterpart (other : List (Handle kind × α)) (entry : Handle kind × α) :
    Handle kind × α :=
  (entry.1, (get? entry.1 other).getD entry.2)

section Corresponds

variable {related : α → α → Prop} {left right : List (Handle kind × α)}
  (corresponds : Corresponds related left right) (rightDistinct : Distinct right)

include corresponds rightDistinct

theorem Corresponds.counterpart_of_mem {key : Handle kind} {value : α}
    (member : (key, value) ∈ right) :
    ∃ old, get? key left = some old ∧ counterpart left (key, value) = (key, old) ∧
      related old value := by
  have stored := rightDistinct.get?_eq_some_iff.mpr member
  have there : (get? key left).isSome = true := by
    rw [corresponds.keys, stored]
    rfl
  obtain ⟨old, found⟩ := Option.isSome_iff_exists.mp there
  exact ⟨old, found, by simp [counterpart, found], corresponds.values found stored⟩

/-- The entries of the left map in the order of the right one. -/
theorem Corresponds.perm_counterparts (leftDistinct : Distinct left) :
    left.Perm (right.map (counterpart left)) := by
  have counterpartsDistinct : Distinct (right.map (counterpart left)) := by
    have sameKeys : (right.map (counterpart left)).map Prod.fst =
        right.map Prod.fst := by
      simp [counterpart]
    rw [Distinct, sameKeys]
    exact rightDistinct
  apply (List.perm_ext_iff_of_nodup (leftDistinct.of_map _)
    (counterpartsDistinct.of_map _)).mpr
  intro entry
  obtain ⟨key, old⟩ := entry
  rw [← leftDistinct.get?_eq_some_iff, List.mem_map]
  constructor
  · intro found
    have there : (get? key right).isSome = true := by
      rw [← corresponds.keys, found]
      rfl
    obtain ⟨value, stored⟩ := Option.isSome_iff_exists.mp there
    have member := rightDistinct.get?_eq_some_iff.mp stored
    exact ⟨(key, value), member, by simp [counterpart, found]⟩
  · intro image
    obtain ⟨⟨other, value⟩, member, same⟩ := image
    obtain ⟨stored, found, paired, -⟩ :=
      corresponds.counterpart_of_mem rightDistinct member
    rw [paired] at same
    cases same
    exact found

/-- Corresponding maps list related entries, each in an order of its own. -/
theorem Corresponds.reorders (leftDistinct : Distinct left) :
    Reorders related left right := by
  refine ⟨right.map (counterpart left),
    corresponds.perm_counterparts rightDistinct leftDistinct, ?_⟩
  rw [List.forall₂_map_left_iff, List.forall₂_same]
  intro entry member
  obtain ⟨old, -, paired, relates⟩ :=
    corresponds.counterpart_of_mem rightDistinct member
  rw [paired]
  exact ⟨rfl, relates⟩

end Corresponds

end Entries

namespace Checksum

variable {α : Type}

theorem unordered_perm {hash : α → UInt32} {left right : List α}
    (permutation : left.Perm right) : unordered hash left = unordered hash right := by
  rw [unordered_eq_sum, unordered_eq_sum]
  exact (permutation.map hash).sum_eq

theorem unordered_map {β : Type} (hash : β → UInt32) (change : α → β)
    (entries : List α) :
    unordered hash (entries.map change) = unordered (fun entry => hash (change entry)) entries := by
  rw [unordered_eq_sum, unordered_eq_sum, List.map_map]
  rfl

theorem unordered_reorders {kind : HandleKind} {related : α → α → Prop}
    {hash : Handle kind × α → UInt32} {left right : List (Handle kind × α)}
    (reorders : Entries.Reorders related left right)
    (respects : ∀ key old new, related old new → hash (key, old) = hash (key, new)) :
    unordered hash left = unordered hash right := by
  obtain ⟨middle, permutation, matched⟩ := reorders
  rw [unordered_perm permutation]
  clear permutation
  rw [unordered_eq_sum, unordered_eq_sum]
  induction matched with
  | nil => rfl
  | @cons old new olds news relates matched induction =>
      obtain ⟨key, old⟩ := old
      obtain ⟨_, new⟩ := new
      obtain ⟨rfl, related⟩ := relates
      rw [List.map_cons, List.map_cons, List.sum_cons, List.sum_cons, induction,
        respects key old new related]

end Checksum

/-- A net with its unordered collections written out. -/
structure NetListing where
  name : Symbol
  driver : NetEnd
  users : List NetEnd
  attrs : List (Symbol × String)
  wires : List (WireId × Hop)

/-- A cell with its unordered collections written out. -/
structure CellListing where
  name : Symbol
  cellType : Symbol
  bel : Option BelId
  strength : Strength
  ports : List (Symbol × Port)
  pins : List (Symbol × Symbol)
  attrs : List (Symbol × String)
  params : List (Symbol × String)

/-- A design with its unordered collections written out. -/
structure Listing where
  nets : List (Symbol × NetListing)
  cells : List (Symbol × CellListing)

def Net.listing (net : Net) : NetListing :=
  ⟨net.name, net.driver, net.users, net.attrs.toList, net.wires.toList⟩

def Cell.listing (cell : Cell) : CellListing :=
  ⟨cell.name, cell.cellType, cell.bel, cell.strength, cell.ports.toList,
    cell.pins.toList, cell.attrs.toList, cell.params.toList⟩

/-- The listing by handle. -/
def Design.listing (design : Design) : Listing :=
  ⟨design.nets.toList.map fun entry => (entry.1, entry.2.listing),
    design.cells.toList.map fun entry => (entry.1, entry.2.listing)⟩

variable {κ : Type}

section Hashes

open Checksum

def NetListing.hash (device : Device κ) (entry : Symbol × NetListing) : UInt32 :=
  let (key, net) := entry
  chain ([key.raw, net.name.raw] ++ netEnd device net.driver ++
    net.users.flatMap (netEnd device) ++
    [unordered textEntry net.attrs, unordered (hopEntry device) net.wires])

def CellListing.hash (device : Device κ) (entry : Symbol × CellListing) : UInt32 :=
  let (key, cell) := entry
  chain [key.raw, cell.name.raw, cell.cellType.raw,
    unordered portEntry cell.ports,
    unordered textEntry cell.attrs,
    unordered textEntry cell.params,
    (cell.bel.map device.belTerm).getD absent,
    cell.strength.rank,
    unordered pinEntry cell.pins]

/-- The checksum of a design read as it is written out. -/
def Listing.checksum (device : Device κ) (listing : Listing) : UInt32 :=
  mixAll (scramble seed)
    [unordered (NetListing.hash device) listing.nets,
      unordered (CellListing.hash device) listing.cells]

/-- The tables are read by handle. -/
theorem Layout.checksum_eq_listing (layout : Layout κ) :
    layout.checksum = layout.design.listing.checksum layout.fabric.device := by
  simp only [Layout.checksum, Listing.checksum, Design.listing, unordered_map]
  rfl

end Hashes

/-! ## Reordering -/

/-- A relation between the entries of two collections. -/
abbrev EntriesRelation :=
  ∀ (kind : HandleKind) (α : Type), List (Handle kind × α) → List (Handle kind × α) → Prop

/-- The entries of both collections are the same but for their order. -/
def EntriesRelation.perm : EntriesRelation := fun _ _ => List.Perm

/-- Both collections are the same finite map. -/
def EntriesRelation.agree : EntriesRelation := fun _ _ left right =>
  ∀ key, Entries.get? key left = Entries.get? key right

variable {same : EntriesRelation}

/-- The same net, its collections up to a relation. -/
structure NetListing.Matches (same : EntriesRelation) (left right : NetListing) :
    Prop where
  name : left.name = right.name
  driver : left.driver = right.driver
  users : left.users = right.users
  attrs : same _ _ left.attrs right.attrs
  wires : same _ _ left.wires right.wires

/-- The same cell, its collections up to a relation. -/
structure CellListing.Matches (same : EntriesRelation) (left right : CellListing) :
    Prop where
  name : left.name = right.name
  cellType : left.cellType = right.cellType
  bel : left.bel = right.bel
  strength : left.strength = right.strength
  ports : same _ _ left.ports right.ports
  pins : same _ _ left.pins right.pins
  attrs : same _ _ left.attrs right.attrs
  params : same _ _ left.params right.params

/-- The same design, every unordered collection in any order. -/
structure Listing.Reorders (left right : Listing) : Prop where
  nets : Entries.Reorders (NetListing.Matches .perm) left.nets right.nets
  cells : Entries.Reorders (CellListing.Matches .perm) left.cells right.cells

theorem NetListing.Matches.hash_eq {left right : NetListing}
    (reordered : left.Matches .perm right) (device : Device κ) (key : Symbol) :
    NetListing.hash device (key, left) = NetListing.hash device (key, right) := by
  simp only [NetListing.hash, reordered.name, reordered.driver, reordered.users,
    Checksum.unordered_perm reordered.attrs, Checksum.unordered_perm reordered.wires]

theorem CellListing.Matches.hash_eq {left right : CellListing}
    (reordered : left.Matches .perm right) (device : Device κ) (key : Symbol) :
    CellListing.hash device (key, left) = CellListing.hash device (key, right) := by
  simp only [CellListing.hash, reordered.name, reordered.cellType, reordered.bel,
    reordered.strength, Checksum.unordered_perm reordered.ports,
    Checksum.unordered_perm reordered.pins, Checksum.unordered_perm reordered.attrs,
    Checksum.unordered_perm reordered.params]

theorem Listing.Reorders.checksum_eq {left right : Listing}
    (reorders : left.Reorders right) (device : Device κ) :
    left.checksum device = right.checksum device := by
  have nets := Checksum.unordered_reorders reorders.nets
    fun key _ _ reordered => reordered.hash_eq device key
  have cells := Checksum.unordered_reorders reorders.cells
    fun key _ _ reordered => reordered.hash_eq device key
  rw [Listing.checksum, Listing.checksum, nets, cells]

/-! ## Filling -/

/-- Every collection of the net has been filled by storing and removing. -/
structure NetListing.Filled (net : NetListing) : Prop where
  attrs : Entries.Filled net.attrs
  wires : Entries.Filled net.wires

structure CellListing.Filled (cell : CellListing) : Prop where
  ports : Entries.Filled cell.ports
  pins : Entries.Filled cell.pins
  attrs : Entries.Filled cell.attrs
  params : Entries.Filled cell.params

structure Listing.Filled (listing : Listing) : Prop where
  nets : Entries.Filled listing.nets
  cells : Entries.Filled listing.cells
  net : ∀ entry ∈ listing.nets, entry.2.Filled
  cell : ∀ entry ∈ listing.cells, entry.2.Filled

/-- The same finite maps, of nets and of cells and within each of them. -/
structure Listing.Agrees (left right : Listing) : Prop where
  nets : Entries.Corresponds (NetListing.Matches .agree) left.nets right.nets
  cells : Entries.Corresponds (CellListing.Matches .agree) left.cells right.cells

theorem Entries.Filled.perm {kind : HandleKind} {α : Type}
    {left right : List (Handle kind × α)} (leftFilled : Filled left)
    (rightFilled : Filled right) (agree : EntriesRelation.agree _ _ left right) :
    left.Perm right := by
  have leftDistinct := leftFilled.distinct
  have rightDistinct := rightFilled.distinct
  apply (List.perm_ext_iff_of_nodup (leftDistinct.of_map _)
    (rightDistinct.of_map _)).mpr
  intro entry
  obtain ⟨key, value⟩ := entry
  rw [← leftDistinct.get?_eq_some_iff, agree key, rightDistinct.get?_eq_some_iff]

theorem NetListing.Filled.matches_perm {left right : NetListing}
    (leftFilled : left.Filled) (rightFilled : right.Filled)
    (agree : left.Matches .agree right) : left.Matches .perm right where
  name := agree.name
  driver := agree.driver
  users := agree.users
  attrs := leftFilled.attrs.perm rightFilled.attrs agree.attrs
  wires := leftFilled.wires.perm rightFilled.wires agree.wires

theorem CellListing.Filled.matches_perm {left right : CellListing}
    (leftFilled : left.Filled) (rightFilled : right.Filled)
    (agree : left.Matches .agree right) : left.Matches .perm right where
  name := agree.name
  cellType := agree.cellType
  bel := agree.bel
  strength := agree.strength
  ports := leftFilled.ports.perm rightFilled.ports agree.ports
  pins := leftFilled.pins.perm rightFilled.pins agree.pins
  attrs := leftFilled.attrs.perm rightFilled.attrs agree.attrs
  params := leftFilled.params.perm rightFilled.params agree.params

theorem Table.filled {kind : HandleKind} {α : Type} (table : Table kind α) :
    Entries.Filled table.toList :=
  table.sorted.distinct.filled

theorem Design.filled_listing (design : Design) : design.listing.Filled := by
  have filled {β γ : Type} (table : Table .name β) (change : β → γ) :
      Entries.Filled (table.toList.map fun entry => (entry.1, change entry.2)) := by
    apply Entries.Distinct.filled
    have distinct := table.sorted.distinct
    rwa [Entries.Distinct, List.map_map]
  constructor
  · exact filled design.nets Net.listing
  · exact filled design.cells Cell.listing
  · intro entry member
    obtain ⟨⟨key, net⟩, -, rfl⟩ := List.mem_map.mp member
    exact ⟨net.attrs.filled, net.wires.filled⟩
  · intro entry member
    obtain ⟨⟨key, cell⟩, -, rfl⟩ := List.mem_map.mp member
    exact ⟨cell.ports.filled, cell.pins.filled, cell.attrs.filled, cell.params.filled⟩

/-- Equal finite maps are listed alike, however they have been filled. -/
theorem Listing.Filled.reorders {left right : Listing} (leftFilled : left.Filled)
    (rightFilled : right.Filled) (agrees : left.Agrees right) :
    left.Reorders right := by
  constructor
  · apply Entries.Corresponds.reorders _ rightFilled.nets.distinct leftFilled.nets.distinct
    refine ⟨agrees.nets.keys, ?_⟩
    intro key old new leftFound rightFound
    have leftNet := leftFilled.net _ (Entries.mem_of_get?_eq_some leftFound)
    have rightNet := rightFilled.net _ (Entries.mem_of_get?_eq_some rightFound)
    exact leftNet.matches_perm rightNet (agrees.nets.values leftFound rightFound)
  · apply Entries.Corresponds.reorders _ rightFilled.cells.distinct
      leftFilled.cells.distinct
    refine ⟨agrees.cells.keys, ?_⟩
    intro key old new leftFound rightFound
    have leftCell := leftFilled.cell _ (Entries.mem_of_get?_eq_some leftFound)
    have rightCell := rightFilled.cell _ (Entries.mem_of_get?_eq_some rightFound)
    exact leftCell.matches_perm rightCell (agrees.cells.values leftFound rightFound)

namespace Layout

def withUsers (layout : Layout κ) (key : Symbol) (net : Net) (users : List NetEnd) :
    Layout κ :=
  { layout with design := layout.design.setNet key { net with users } }

theorem checksum_withUsers {layout : Layout κ} {key : Symbol} {net : Net}
    {users : List NetEnd} (known : layout.design.nets.get? key = some net)
    (terms : users.map (Checksum.netEnd layout.fabric.device) =
      net.users.map (Checksum.netEnd layout.fabric.device)) :
    (layout.withUsers key net users).checksum = layout.checksum := by
  let hash := Checksum.netEntry layout.fabric.device
  have hashed (name : Symbol) : hash (name, { net with users }) = hash (name, net) := by
    simp only [hash, Checksum.netEntry, List.flatMap_def, terms]
  have found (query : Symbol) :
      Entries.get? query (layout.withUsers key net users).design.nets.toList =
        if query = key then some { net with users } else layout.design.nets.get? query :=
    Table.get?_insert ..
  have corresponds : Entries.Corresponds
      (fun old new => ∀ name, hash (name, old) = hash (name, new))
      (layout.withUsers key net users).design.nets.toList
      layout.design.nets.toList := by
    constructor
    · intro query
      rw [found]
      split
      · next same =>
          have stored : Entries.get? query layout.design.nets.toList = some net :=
            same ▸ known
          rw [stored]
          rfl
      · rfl
    · intro query old new oldFound newFound name
      rw [found] at oldFound
      split at oldFound
      · next same =>
          subst same
          cases oldFound
          cases known.symm.trans newFound
          exact hashed name
      · cases oldFound.symm.trans newFound
        rfl
  have sums := Checksum.unordered_reorders
    (corresponds.reorders (Table.sorted _).distinct (Table.sorted _).distinct)
    fun name _ _ same => same name
  exact congrArg
    (fun nets => Checksum.mixAll (Checksum.scramble Checksum.seed)
      [nets, Checksum.unordered (Checksum.cellEntry layout.fabric.device)
        layout.design.cells.toList]) sums

/-- A net with two users on a device that ignores delays. -/
def twoUsers : Layout Int :=
  { fresh { tinyDevice with delayTerm := fun _ => 0 } with
    design := Design.empty.setNet ⟨1⟩
      { Net.undriven ⟨1⟩ ⟨0⟩ with users := [.ofPort ⟨2⟩ ⟨3⟩, .ofPort ⟨4⟩ ⟨3⟩] } }

/-- The checksum reads the tables in some order.  Any other order of any unordered
collection gives the same checksum, and so does any way of filling the same
finite maps.  The users of a net count through the sequence of their terms, and
their order matters. -/
theorem checksum_ignores_order :
    (∀ layout : Layout κ,
      layout.checksum = layout.design.listing.checksum layout.fabric.device ∧
        layout.design.listing.Filled) ∧
      (∀ (device : Device κ) (left right : Listing), left.Reorders right →
        left.checksum device = right.checksum device) ∧
      (∀ (device : Device κ) (left right : Listing), left.Filled → right.Filled →
        left.Agrees right → left.checksum device = right.checksum device) ∧
      (∀ (layout : Layout κ) (key : Symbol) (net : Net) (users : List NetEnd),
        layout.design.nets.get? key = some net →
        users.map (Checksum.netEnd layout.fabric.device) =
          net.users.map (Checksum.netEnd layout.fabric.device) →
        (layout.withUsers key net users).checksum = layout.checksum) ∧
      ∃ net, twoUsers.design.nets.get? ⟨1⟩ = some net ∧
        (twoUsers.withUsers ⟨1⟩ net net.users.reverse).checksum ≠
          twoUsers.checksum := by
  refine ⟨?_, ?_, ?_, ?_, ?_⟩
  · intro layout
    exact ⟨layout.checksum_eq_listing, layout.design.filled_listing⟩
  · intro device left right reorders
    exact reorders.checksum_eq device
  · intro device left right leftFilled rightFilled agrees
    exact (leftFilled.reorders rightFilled agrees).checksum_eq device
  · intro layout key net users known terms
    exact checksum_withUsers known terms
  · exact ⟨_, rfl, by decide +kernel⟩

/-- One cell with the given parameters. -/
def parameters (params : List (Symbol × String)) : Listing :=
  ⟨[], [(⟨1⟩, { (Cell.unplaced ⟨1⟩ ⟨2⟩).listing with params })]⟩

theorem filled_parameters {params : List (Symbol × String)}
    (filled : Entries.Filled params) : (parameters params).Filled := by
  constructor
  · exact .empty
  · exact .store .empty ⟨1⟩ _ (.refl _)
  · exact fun _ member => nomatch member
  · intro entry member
    cases List.mem_singleton.mp member
    exact ⟨.empty, .empty, .empty, filled⟩

/-- Two parameters stored in either order, the second time with one of them
overwritten and a third removed. -/
theorem checksum_ignores_order_of_parameters :
    Entries.Filled ([(⟨3⟩, "x"), (⟨4⟩, "y")] : List (Symbol × String)) ∧
      Entries.Filled ([(⟨4⟩, "y"), (⟨3⟩, "x")] : List (Symbol × String)) ∧
      (parameters [(⟨3⟩, "x"), (⟨4⟩, "y")]).checksum tinyDevice =
        (parameters [(⟨4⟩, "y"), (⟨3⟩, "x")]).checksum tinyDevice := by
  have forwards : Entries.Filled ([(⟨3⟩, "x"), (⟨4⟩, "y")] : List (Symbol × String)) :=
    (Entries.Filled.empty.store ⟨4⟩ "y" (.refl _)).store ⟨3⟩ "x" (by decide)
  have backwards : Entries.Filled ([(⟨4⟩, "y"), (⟨3⟩, "x")] : List (Symbol × String)) := by
    have stored : Entries.Filled ([(⟨3⟩, "x"), (⟨4⟩, "z")] : List (Symbol × String)) :=
      (Entries.Filled.empty.store ⟨4⟩ "z" (.refl _)).store ⟨3⟩ "x" (by decide)
    have overwritten := stored.store ⟨4⟩ "y" (.refl _)
    exact (overwritten.store ⟨5⟩ "w" (.refl _)).remove ⟨5⟩ (by decide)
  refine ⟨forwards, backwards, ?_⟩
  apply (checksum_ignores_order (κ := Int)).2.2.1 tinyDevice _ _
    (filled_parameters forwards) (filled_parameters backwards)
  refine ⟨⟨fun _ => rfl, nofun⟩, ⟨?_, ?_⟩⟩
  · intro key
    by_cases first : (⟨1⟩ : Symbol) = key <;> simp [parameters, Entries.get?, first]
  intro key old new oldFound newFound
  have oldListed := Entries.mem_of_get?_eq_some oldFound
  have newListed := Entries.mem_of_get?_eq_some newFound
  cases List.mem_singleton.mp oldListed
  cases List.mem_singleton.mp newListed
  refine ⟨rfl, rfl, rfl, rfl, fun _ => rfl, fun _ => rfl, fun _ => rfl, ?_⟩
  intro query
  simp only [Entries.get?]
  by_cases third : (⟨3⟩ : Symbol) = query
  · subst third
    rfl
  · simp [third]

end Layout

end FpgaPlacer
