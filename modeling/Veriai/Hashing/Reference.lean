import Veriai.Hashing.ModelHash

/-!
# The reference root by positions

The documented hash, stated without the loops of the code: block `i` of a file is
cut out at its offset, node `i` of a level hashes nodes `2 * i` and `2 * i + 1` of
the level below, and the root is what the last level holds. Hashing a file
computes this root, whatever its reads return.
-/

namespace Veriai

/-- The number of blocks of a file. -/
def blockCount (size : Nat) (data : Bytes) : Nat := (data.length + size - 1) / size

/-- Block `i`: the bytes from `i * size` on, at most `size` of them. -/
def blockAt (size : Nat) (data : Bytes) (i : Nat) : Bytes := (data.drop (i * size)).take size

/-- The successive blocks. -/
def blocks (size : Nat) (data : Bytes) : List Bytes :=
  (List.range (blockCount size data)).map (blockAt size data)

theorem blockCount_of_ne_nil {size : Nat} (hsize : 0 < size) {data : Bytes} (h : data ≠ []) :
    blockCount size data = blockCount size (data.drop size) + 1 := by
  have hpos : 0 < data.length := List.length_pos_iff.mpr h
  unfold blockCount
  rw [List.length_drop]
  by_cases hle : size ≤ data.length
  · have hsplit : data.length + size - 1 = data.length - size + size - 1 + size := by omega
    rw [hsplit, Nat.add_div_right _ hsize]
  · have hzero : data.length - size + size - 1 < size := by omega
    have hone : data.length + size - 1 = data.length - 1 + size := by omega
    rw [Nat.div_eq_of_lt hzero, hone, Nat.add_div_right _ hsize, Nat.div_eq_of_lt (by omega)]

theorem blockAt_succ (size : Nat) (data : Bytes) (i : Nat) :
    blockAt size data (i + 1) = blockAt size (data.drop size) i := by
  have hoffset : (i + 1) * size = size + i * size := by
    rw [Nat.succ_mul, Nat.add_comm]
  rw [blockAt, blockAt, List.drop_drop, hoffset]

/-- Cutting chunk after chunk off the front gives the blocks. -/
theorem chunks_eq_blocks {size : Nat} (hsize : 0 < size) (data : Bytes) :
    chunks size data = blocks size data := by
  induction data using chunks.induct size with
  | case1 data h =>
    obtain rfl : data = [] := by
      rcases h with h | h
      · exact h
      · omega
    have hcount : blockCount size ([] : Bytes) = 0 := by
      apply Nat.div_eq_of_lt
      rw [List.length_nil]
      omega
    rw [chunks_nil, blocks, hcount]
    rfl
  | case2 data h ih =>
    have hne : data ≠ [] := fun hnil => h (Or.inl hnil)
    have hfirst : blockAt size data 0 = data.take size := by
      rw [blockAt, Nat.zero_mul, List.drop_zero]
    have hrest : blockAt size data ∘ Nat.succ = blockAt size (data.drop size) := by
      funext i
      exact blockAt_succ size data i
    rw [chunks_of_ne_nil hsize hne, ih, blocks, blocks, blockCount_of_ne_nil hsize hne,
      List.range_succ_eq_map, List.map_cons, List.map_map, hfirst, hrest]

/-- Node `i` of the level above: the left child with the right one, or with itself. -/
def parentAt (sha256 : Bytes → Digest) (level : List Digest) (i : Nat) : Option Digest :=
  level[2 * i]?.map fun left => sha256 (left.toList ++ (level[2 * i + 1]?.getD left).toList)

/-- The level above: one node for every two children, rounded up. -/
def levelAbove (sha256 : Bytes → Digest) (level : List Digest) : List Digest :=
  (List.range ((level.length + 1) / 2)).filterMap (parentAt sha256 level)

/-- The root above a level: its node, if it has only one, else the root above the next level. -/
inductive RootAbove (sha256 : Bytes → Digest) : List Digest → Digest → Prop
  | node (root : Digest) : RootAbove sha256 [root] root
  | level {nodes : List Digest} {root : Digest} : 1 < nodes.length →
      RootAbove sha256 (levelAbove sha256 nodes) root → RootAbove sha256 nodes root

/-- The reference root of a file. -/
inductive ReferenceRoot (sha256 : Bytes → Digest) (size : Nat) : Bytes → Digest → Prop
  | empty : ReferenceRoot sha256 size [] (sha256 [])
  | leaves {data : Bytes} {root : Digest} : data ≠ [] →
      RootAbove sha256 ((blocks size data).map sha256) root → ReferenceRoot sha256 size data root

/-- A level has at most one root. -/
theorem RootAbove.unique {sha256 : Bytes → Digest} {nodes : List Digest} {root root' : Digest}
    (h : RootAbove sha256 nodes root) (h' : RootAbove sha256 nodes root') : root = root' := by
  induction h with
  | node root =>
    cases h' with
    | node => rfl
    | level hlt _ => exact (Nat.lt_irrefl 1 hlt).elim
  | level hlt _ ih =>
    cases h' with
    | node => exact (Nat.lt_irrefl 1 hlt).elim
    | level _ h' => exact ih h'

theorem ReferenceRoot.unique {sha256 : Bytes → Digest} {size : Nat} {data : Bytes}
    {root root' : Digest} (h : ReferenceRoot sha256 size data root)
    (h' : ReferenceRoot sha256 size data root') : root = root' := by
  cases h with
  | empty =>
    cases h' with
    | empty => rfl
    | leaves hne _ => exact (hne rfl).elim
  | leaves hne h =>
    cases h' with
    | empty => exact (hne rfl).elim
    | leaves _ h' => exact h.unique h'

/-- Pairing neighbours from the front gives the level above. -/
theorem pairUp_eq_levelAbove (sha256 : Bytes → Digest) (level : List Digest) :
    pairUp (hashPair sha256) level = levelAbove sha256 level := by
  induction level using pairUp.induct with
  | case1 a b rest ih =>
    have hcount : ((a :: b :: rest).length + 1) / 2 = (rest.length + 1) / 2 + 1 := by
      simp only [List.length_cons]
      omega
    have hfirst : parentAt sha256 (a :: b :: rest) 0 = some (hashPair sha256 a b) := rfl
    have hrest : ∀ i, parentAt sha256 (a :: b :: rest) (Nat.succ i) = parentAt sha256 rest i := by
      intro i
      have htwo : 2 * Nat.succ i = 2 * i + 2 := Nat.mul_succ 2 i
      rw [parentAt, parentAt, htwo]
      rfl
    rw [pairUp, ih, levelAbove, levelAbove, hcount, List.range_succ_eq_map,
      List.filterMap_cons_some hfirst, List.filterMap_map]
    congr 2
  | case2 a => simp [pairUp, levelAbove, parentAt, hashPair]
  | case3 => rfl

theorem top_singleton (sha256 : Bytes → Digest) (root : Digest) (h : [root] ≠ []) :
    top (hashPair sha256) [root] h = root := by
  have hclimb : climb (hashPair sha256) [root] = [root] := climb_of_le (Nat.le_refl 1)
  simp only [top, hclimb, List.head_cons]

/-- Climbing a nonempty level ends with the root above it. -/
theorem rootAbove_top {sha256 : Bytes → Digest} {level : List Digest} (h : level ≠ []) :
    RootAbove sha256 level (top (hashPair sha256) level h) := by
  induction level using climb.induct (hashPair sha256) with
  | case1 level hlt ih =>
    have hne : pairUp (hashPair sha256) level ≠ [] := by
      intro hnil
      have hlen := length_pairUp (hashPair sha256) level
      rw [hnil, List.length_nil] at hlen
      omega
    have hsame : top (hashPair sha256) level h = top (hashPair sha256) _ hne := by
      simp only [top, climb_of_lt hlt]
    rw [hsame]
    apply RootAbove.level hlt
    rw [← pairUp_eq_levelAbove]
    exact ih hne
  | case2 level hle =>
    obtain ⟨root, rfl⟩ : ∃ root, level = [root] := by
      apply List.length_eq_one_iff.mp
      have hpos := List.length_pos_iff.mpr h
      omega
    rw [top_singleton]
    exact .node root

/-- The Merkle root of a file's bytes is the reference root. -/
theorem referenceRoot_merkleRoot {sha256 : Bytes → Digest} {size : Nat} (hsize : 0 < size)
    (data : Bytes) : ReferenceRoot sha256 size data (merkleRoot sha256 size hsize data) := by
  by_cases hdata : data = []
  · subst hdata
    have hempty : merkleRoot sha256 size hsize [] = sha256 [] :=
      top_singleton sha256 (sha256 []) (List.cons_ne_nil _ _)
    rw [hempty]
    exact .empty
  · apply ReferenceRoot.leaves hdata
    have hleaves : (leafInputs size data).map sha256 = (blocks size data).map sha256 := by
      rw [leafInputs, if_neg hdata, chunks_eq_blocks hsize]
    rw [← hleaves]
    exact rootAbove_top _

/-- Hashing a file whose reads do not fail ends with the reference root, however many bytes
each read returns. -/
theorem hashFileMerkle_reference {sha256 : Bytes → Digest} {size : Nat} (hsize : 0 < size)
    {file : File} (h : file.Reads) :
    ∃ root, hashFileMerkle sha256 size (.ok file) = .ok root ∧
      ∀ root', ReferenceRoot sha256 size file.rest root' ↔ root' = root := by
  have hroot : ReferenceRoot sha256 size file.rest _ := referenceRoot_merkleRoot hsize file.rest
  refine ⟨_, hashFileMerkle_of_reads hsize h, ?_⟩
  intro root'
  constructor
  · intro h'
    exact h'.unique hroot
  · rintro rfl
    exact hroot

/-- Five bytes in chunks of two, read one byte at a time. -/
theorem hashFileMerkle_reference_bytes :
    ∃ root, hashFileMerkle (fun bytes => List.Vector.replicate 32 bytes.sum) 2
        (.ok ⟨[1, 2, 3, 4, 5], fun _ => .ok 1⟩) = .ok root ∧
      ∀ root', ReferenceRoot (fun bytes => List.Vector.replicate 32 bytes.sum) 2 [1, 2, 3, 4, 5]
        root' ↔ root' = root :=
  hashFileMerkle_reference (by decide) fun _ => ⟨1, rfl⟩

end Veriai
