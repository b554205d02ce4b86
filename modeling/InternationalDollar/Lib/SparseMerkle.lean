import Mathlib.Data.List.Dedup
import Mathlib.Data.List.Lookmap
import Mathlib.Data.Nat.Bitwise
import Mathlib.Tactic.Ring

set_option autoImplicit false

/-! # Sparse Merkle trees

A binary tree whose leaves are numbered by naturals, almost all of them empty. `node leaf h p` is
the hash at height `h` and position `p` over the leaf hashes `leaf`; it is the meaning of a sparse
tree. What programs store instead are levels that hold only the nodes that differ from the hash of
an empty subtree (`Level`), an inclusion proof is the list of sibling hashes from a leaf upwards
(`siblings`), and a verifier folds such a list (`climb`).

The results connect the three: building levels upwards computes `node` (`get_parents`), the siblings
of a leaf lead to the root (`climb_siblings`), **a list that leads to a node of the tree is the list
of siblings and starts from the tree's own leaf** (`eq_of_climb_eq`), and changing one leaf changes
exactly the nodes on its path (`node_update_of_ne`, `node_update_path`). -/

namespace SparseMerkle

variable {H : Type} (branch : H → H → H) (emptyLeaf : H)

/-! ## Nodes -/

/-- The hash of an empty subtree of a given height. -/
def emptyAt : Nat → H
  | 0 => emptyLeaf
  | h + 1 => (fun e => branch e e) (emptyAt h)

/-- The hash at height `h` and position `p` over the given leaf hashes. -/
def node (leaf : Nat → H) : Nat → Nat → H
  | 0, p => leaf p
  | h + 1, p => branch (node leaf h (2 * p)) (node leaf h (2 * p + 1))

theorem node_zero (leaf : Nat → H) (p : Nat) : node branch leaf 0 p = leaf p := rfl

theorem node_succ (leaf : Nat → H) (h p : Nat) :
    node branch leaf (h + 1) p
      = branch (node branch leaf h (2 * p)) (node branch leaf h (2 * p + 1)) := rfl

theorem node_congr {leaf leaf' : Nat → H} (h : ∀ p, leaf p = leaf' p) (n p : Nat) :
    node branch leaf n p = node branch leaf' n p := by
  rw [funext h]

theorem node_empty (h p : Nat) :
    node branch (fun _ => emptyLeaf) h p = emptyAt branch emptyLeaf h := by
  induction h generalizing p with
  | zero => rfl
  | succ h ih => rw [node_succ, ih, ih, emptyAt]

/-- A node and its sibling make up their parent. -/
theorem node_parent (leaf : Nat → H) (h p : Nat) :
    node branch leaf (h + 1) (p / 2)
      = if p % 2 = 0 then branch (node branch leaf h p) (node branch leaf h (p ^^^ 1))
        else branch (node branch leaf h (p ^^^ 1)) (node branch leaf h p) := by
  rw [node_succ]
  split
  · next hp =>
    have h1 : 2 * (p / 2) = p := by omega
    have h2 : p ^^^ 1 = p + 1 := Nat.xor_one_of_even (Nat.even_iff.2 hp)
    rw [h2, h1]
  · next hp =>
    have hodd : p % 2 = 1 := by omega
    have h1 : 2 * (p / 2) + 1 = p := by omega
    have h2 : p ^^^ 1 = p - 1 := Nat.xor_one_of_odd (Nat.odd_iff.2 hodd)
    have h3 : 2 * (p / 2) = p - 1 := by omega
    rw [h2, h1, h3]

/-! ## Sparse levels -/

/-- One level of a sparse tree: the positions that hold a hash of their own. -/
abbrev Level (H : Type) := List (Nat × H)

/-- The hash at a position, a default one where the level holds none. -/
def Level.get (level : Level H) (p : Nat) (default : H) : H :=
  (level.lookup p).getD default

/-- The parents of the nodes of a level; those that hash like an empty subtree are left out. -/
def parents [DecidableEq H] (emptyChild emptyParent : H) (level : Level H) : Level H :=
  ((level.map (fun e => e.1 / 2)).dedup).filterMap (fun p =>
    let hash := branch (level.get (2 * p) emptyChild) (level.get (2 * p + 1) emptyChild)
    if hash = emptyParent then none else some (p, hash))

theorem lookup_eq_none_of_notMem {level : Level H} {p : Nat} (h : ∀ e ∈ level, e.1 ≠ p) :
    level.lookup p = none := by
  rw [List.lookup_eq_none_iff]
  intro e he
  simpa using (h e he).symm

/-- Looking up a position in a level that is computed position by position. -/
theorem lookup_filterMap (ps : List Nat) (f : Nat → Option H) (p : Nat) :
    (ps.filterMap (fun q => (f q).map (fun x => (q, x)))).lookup p
      = if p ∈ ps then f p else none := by
  induction ps with
  | nil => rfl
  | cons q ps ih =>
    rw [List.filterMap_cons]
    by_cases hqp : q = p
    · subst hqp
      rw [if_pos List.mem_cons_self]
      cases hf : f q with
      | none =>
        rw [Option.map_none]
        simp only [ih]
        split
        · exact hf
        · rfl
      | some x => simp
    · have hmem : p ∈ q :: ps ↔ p ∈ ps := by
        rw [List.mem_cons]
        exact or_iff_right (fun h => hqp h.symm)
      have hbeq : (p == q) = false := by simpa using fun h => hqp h.symm
      rw [if_congr hmem rfl rfl, ← ih]
      cases hf : f q with
      | none => rfl
      | some x => simp only [Option.map_some, List.lookup_cons, hbeq]

/-- **Building the next level upwards computes the nodes of the tree.** -/
theorem get_parents [DecidableEq H] (leaf : Nat → H) (h : Nat) (level : Level H)
    (hlevel : ∀ p, level.get p (emptyAt branch emptyLeaf h) = node branch leaf h p) (p : Nat) :
    (parents branch (emptyAt branch emptyLeaf h) (emptyAt branch emptyLeaf (h + 1)) level).get p
        (emptyAt branch emptyLeaf (h + 1))
      = node branch leaf (h + 1) p := by
  have hform : parents branch (emptyAt branch emptyLeaf h) (emptyAt branch emptyLeaf (h + 1)) level
      = ((level.map (fun e => e.1 / 2)).dedup).filterMap (fun q =>
          (if node branch leaf (h + 1) q = emptyAt branch emptyLeaf (h + 1) then none
            else some (node branch leaf (h + 1) q)).map (fun x => (q, x))) := by
    rw [parents]
    congr 1
    funext q
    simp only [hlevel, ← node_succ branch leaf h q]
    split
    · rfl
    · rfl
  rw [hform, Level.get, lookup_filterMap]
  split
  · split
    · next he => rw [he]; rfl
    · rfl
  · next hmem =>
    -- no child is stored: both are empty, and so is the parent
    have hchild : ∀ c, c / 2 = p → node branch leaf h c = emptyAt branch emptyLeaf h := by
      intro c hc
      rw [← hlevel c, Level.get, lookup_eq_none_of_notMem, Option.getD_none]
      rintro e he rfl
      exact hmem (List.mem_dedup.2 (List.mem_map.2 ⟨e, he, hc⟩))
    rw [node_succ, hchild (2 * p) (by omega), hchild (2 * p + 1) (by omega)]
    rfl

/-! ## Proofs -/

/-- The siblings on the path from height `h` and position `p` upwards. -/
def siblings (leaf : Nat → H) : Nat → Nat → Nat → List H
  | 0, _, _ => []
  | n + 1, h, p => node branch leaf h (p ^^^ 1) :: siblings leaf n (h + 1) (p / 2)

theorem length_siblings (leaf : Nat → H) (n h p : Nat) :
    (siblings branch leaf n h p).length = n := by
  induction n generalizing h p with
  | zero => rfl
  | succ n ih => rw [siblings, List.length_cons, ih]

/-- One step up: the parent of a hash at position `p` and its sibling. -/
def step (p : Nat) (current sibling : H) : H :=
  if p % 2 = 0 then branch current sibling else branch sibling current

/-- The hash a path leads to. -/
def climb : Nat → H → List H → H
  | _, current, [] => current
  | p, current, s :: rest => climb (p / 2) (step branch p current s) rest

/-- The pairs that `climb` hashes. -/
def climbPairs : Nat → H → List H → List (H × H)
  | _, _, [] => []
  | p, current, s :: rest =>
      (if p % 2 = 0 then (current, s) else (s, current)) ::
        climbPairs (p / 2) (step branch p current s) rest

/-- The siblings of a node lead to the node above it. -/
theorem climb_siblings (leaf : Nat → H) (n h p : Nat) :
    climb branch p (node branch leaf h p) (siblings branch leaf n h p)
      = node branch leaf (h + n) (p / 2 ^ n) := by
  induction n generalizing h p with
  | zero => simp [siblings, climb]
  | succ n ih =>
    rw [siblings, climb, step, ← node_parent, ih, Nat.div_div_eq_div_mul, ← pow_succ']
    congr 1
    omega

/-- **A path that leads to a node of the tree is the tree's own path**: it starts from the node
    below, and lists its siblings. The branch hash need only be free of collisions between the
    pairs hashed on the path and the pairs of children in the tree. -/
theorem eq_of_climb_eq (leaf : Nat → H) (n h p : Nat) (current : H) (path : List H)
    (hlen : path.length = n)
    (hinj : ∀ x ∈ climbPairs branch p current path, ∀ k q, k < h + n →
      branch x.1 x.2 = branch (node branch leaf k (2 * q)) (node branch leaf k (2 * q + 1)) →
      x.1 = node branch leaf k (2 * q) ∧ x.2 = node branch leaf k (2 * q + 1))
    (hclimb : climb branch p current path = node branch leaf (h + n) (p / 2 ^ n)) :
    current = node branch leaf h p ∧ path = siblings branch leaf n h p := by
  induction n generalizing h p current path with
  | zero =>
    rw [List.length_eq_zero_iff.1 hlen] at hclimb ⊢
    refine ⟨?_, rfl⟩
    simpa [climb] using hclimb
  | succ n ih =>
    cases path with
    | nil => simp at hlen
    | cons s rest =>
      have hlen' : rest.length = n := by simpa using hlen
      have hup : climb branch (p / 2) (step branch p current s) rest
          = node branch leaf (h + 1 + n) (p / 2 / 2 ^ n) := by
        rw [climb] at hclimb
        rw [hclimb, Nat.div_div_eq_div_mul, ← pow_succ']
        congr 1
        omega
      obtain ⟨hparent, hrest⟩ := ih (h + 1) (p / 2) (step branch p current s) rest hlen'
        (fun x hx k q hk => hinj x (by rw [climbPairs]; exact List.mem_cons_of_mem _ hx) k q
          (by omega)) hup
      have hpair := hinj (if p % 2 = 0 then (current, s) else (s, current))
        (by rw [climbPairs]; exact List.mem_cons_self) h (p / 2) (by omega)
      rw [step, node_succ] at hparent
      rw [siblings, ← hrest]
      by_cases hp : p % 2 = 0
      · have h1 : 2 * (p / 2) = p := by omega
        have h2 : p ^^^ 1 = p + 1 := Nat.xor_one_of_even (Nat.even_iff.2 hp)
        rw [if_pos hp] at hparent hpair
        obtain ⟨hc, hs⟩ := hpair hparent
        rw [h1] at hc hs
        rw [h2]
        exact ⟨hc, congrArg (· :: rest) hs⟩
      · have hodd : p % 2 = 1 := by omega
        have h1 : 2 * (p / 2) + 1 = p := by omega
        have h2 : p ^^^ 1 = p - 1 := Nat.xor_one_of_odd (Nat.odd_iff.2 hodd)
        have h3 : 2 * (p / 2) = p - 1 := by omega
        rw [if_neg hp] at hparent hpair
        obtain ⟨hs, hc⟩ := hpair hparent
        rw [h1] at hc
        rw [h3] at hs
        rw [h2]
        exact ⟨hc, congrArg (· :: rest) hs⟩

/-! ## Changing one leaf -/

theorem xor_one_ne (p : Nat) : p ^^^ 1 ≠ p := by
  rcases Nat.even_or_odd p with hp | hp
  · rw [Nat.xor_one_of_even hp]
    omega
  · rw [Nat.xor_one_of_odd hp]
    obtain ⟨k, rfl⟩ := hp
    omega

/-- Nodes off the path of a leaf do not see it. -/
theorem node_update_of_ne (leaf : Nat → H) (p : Nat) (v : H) (h q : Nat) (hq : q ≠ p / 2 ^ h) :
    node branch (Function.update leaf p v) h q = node branch leaf h q := by
  induction h generalizing q with
  | zero =>
    rw [node_zero, node_zero, Function.update_of_ne]
    simpa using hq
  | succ h ih =>
    have hdiv : p / 2 ^ (h + 1) = p / 2 ^ h / 2 := by
      rw [Nat.div_div_eq_div_mul, ← pow_succ]
    rw [hdiv] at hq
    rw [node_succ, node_succ, ih (2 * q) (by omega), ih (2 * q + 1) (by omega)]

/-- The node on the path of a leaf is made of the node below and a sibling that has not changed. -/
theorem node_update_path (leaf : Nat → H) (p : Nat) (v : H) (h : Nat) :
    node branch (Function.update leaf p v) (h + 1) (p / 2 ^ h / 2)
      = step branch (p / 2 ^ h) (node branch (Function.update leaf p v) h (p / 2 ^ h))
          (node branch leaf h (p / 2 ^ h ^^^ 1)) := by
  rw [node_parent, step, node_update_of_ne branch leaf p v h _ (xor_one_ne _)]

/-! ## Stored nodes

What a program stores is made anew along the path of a changed leaf, from the leaf upwards. -/

/-- Up to a height the stored hashes are the nodes of one tree, and above it those of another. -/
structure Between (leaf leaf' : Nat → H) (n k : Nat) (stored : Nat → Nat → H) : Prop where
  below : ∀ h ≤ k, ∀ q, stored h q = node branch leaf' h q
  above : ∀ h, k < h → h ≤ n → ∀ q, stored h q = node branch leaf h q

variable {branch}

/-- A changed leaf is stored first. -/
theorem Between.leaf {leaf : Nat → H} {p n : Nat} {v : H} {stored stored' : Nat → Nat → H}
    (h : ∀ k ≤ n, ∀ q, stored k q = node branch leaf k q)
    (hwrite : ∀ k q, stored' k q = if k = 0 ∧ q = p then v else stored k q) :
    Between branch leaf (Function.update leaf p v) n 0 stored' where
  below := by
    intro k hk q
    obtain rfl := Nat.le_zero.1 hk
    rw [hwrite, node_zero]
    by_cases hq : q = p
    · rw [if_pos ⟨rfl, hq⟩, hq, Function.update_self]
    · rw [if_neg fun hpath => hq hpath.2, Function.update_of_ne hq]
      exact h 0 (Nat.zero_le n) q
  above := by
    intro k hk hn q
    rw [hwrite, if_neg fun hpath => by omega]
    exact h k hn q

/-- Then each node on its path is made of the node below and its stored sibling. -/
theorem Between.next {leaf : Nat → H} {p n k : Nat} {v : H} {stored stored' : Nat → Nat → H}
    (h : Between branch leaf (Function.update leaf p v) n k stored) (hk : k < n)
    (hwrite : ∀ j q, stored' j q = if j = k + 1 ∧ q = p / 2 ^ k / 2 then
      step branch (p / 2 ^ k) (stored k (p / 2 ^ k)) (stored k (p / 2 ^ k ^^^ 1)) else stored j q) :
    Between branch leaf (Function.update leaf p v) n (k + 1) stored' where
  below := by
    intro j hj q
    rw [hwrite]
    by_cases hpath : j = k + 1 ∧ q = p / 2 ^ k / 2
    · obtain ⟨rfl, rfl⟩ := hpath
      rw [if_pos ⟨rfl, rfl⟩, node_update_path, h.below k le_rfl, h.below k le_rfl,
        node_update_of_ne branch leaf p v k _ (xor_one_ne _)]
    · rw [if_neg hpath]
      by_cases htop : j = k + 1
      · subst htop
        have hq : q ≠ p / 2 ^ (k + 1) := by
          rw [pow_succ, ← Nat.div_div_eq_div_mul]
          exact fun hq => hpath ⟨rfl, hq⟩
        rw [h.above (k + 1) (Nat.lt_succ_self k) hk, node_update_of_ne branch leaf p v (k + 1) q hq]
      · exact h.below j (by omega) q
  above := by
    intro j hj hn q
    rw [hwrite, if_neg fun hpath => by omega]
    exact h.above j (by omega) hn q

end SparseMerkle
