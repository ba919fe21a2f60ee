import Veriai.Hashing.ModelHash

/-!
# What the model hash identifies

Which different files share a model hash. The tree duplicates odd nodes and does
not mark leaves, so besides a SHA-256 collision there are exactly two ways: two
files whose chunks are completed to one tree, and a file that spells out the two
digests under the root of another.
-/

namespace Veriai

/-- The bytes of two digests in sequence. -/
def joinDigests (left right : Digest) : Bytes := left.toList ++ right.toList

/-- Two digests side by side have 64 bytes. -/
theorem length_joinDigests (left right : Digest) : (joinDigests left right).length = 64 := by
  simp [joinDigests]

/-- Two digests side by side determine both. -/
theorem joinDigests_injective : Function.Injective2 joinDigests := by
  intro a b c d h
  have hlen : a.toList.length = b.toList.length := by simp
  obtain ⟨hab, hcd⟩ := List.append_inj h hlen
  exact ⟨ByteArr.toList_inj hab, ByteArr.toList_inj hcd⟩

theorem chunkSize_pos : 0 < chunkSize := by decide

/-- The hash tree behind the model hash of a file. -/
def chunkTree (data : Bytes) : HashTree Bytes :=
  HashTree.build (leafInputs chunkSize data) (leafInputs_ne_nil chunkSize_pos data)

/-- Every string fed to SHA-256 for the model hash of a file. -/
def fedStrings (sha256 : Bytes → Digest) (data : Bytes) : List Bytes :=
  leafInputs chunkSize data ++
    climbInputs joinDigests sha256 ((leafInputs chunkSize data).map sha256)

/-- Two different strings fed for the two files have one digest. -/
def FedCollision (sha256 : Bytes → Digest) (data data' : Bytes) : Prop :=
  ∃ s ∈ fedStrings sha256 data, ∃ s' ∈ fedStrings sha256 data', s ≠ s' ∧ sha256 s = sha256 s'

/-- A file consists of the two digests under the root of the other file's tree. -/
def SpellsDigests (sha256 : Bytes → Digest) (data data' : Bytes) : Prop :=
  ∃ left right, chunkTree data' = .node left right ∧
    data = joinDigests (left.digest joinDigests sha256) (right.digest joinDigests sha256)

/-- The two ways different files share a model hash without a collision. -/
inductive Indistinct (sha256 : Bytes → Digest) (data data' : Bytes) : Prop
  /-- Different numbers of chunks, completed by duplicated nodes to one tree. -/
  | sameTree : (leafInputs chunkSize data).length ≠ (leafInputs chunkSize data').length →
      chunkTree data = chunkTree data' → Indistinct sha256 data data'
  | spells : SpellsDigests sha256 data data' → Indistinct sha256 data data'
  | spelled : SpellsDigests sha256 data' data → Indistinct sha256 data data'

variable {sha256 : Bytes → Digest} {data data' : Bytes}

/-- What is fed to the hash are the inputs of the tree over the chunks. -/
theorem mem_fedStrings {s : Bytes} :
    s ∈ fedStrings sha256 data ↔ s ∈ (chunkTree data).inputs joinDigests sha256 := by
  rw [chunkTree, HashTree.mem_inputs_build, fedStrings, List.mem_append]

/-- The Merkle root is the digest of the tree. -/
theorem merkleRoot_eq_digest :
    merkleRoot sha256 chunkSize chunkSize_pos data =
      (chunkTree data).digest joinDigests sha256 := by
  rw [chunkTree, HashTree.digest_build]
  rfl

/-- A collision in the two trees is a collision among the strings that are fed. -/
theorem fedCollision_of_collide (h : HashTree.Collide joinDigests sha256 (chunkTree data)
    (chunkTree data')) : FedCollision sha256 data data' := by
  obtain ⟨s, hs, s', hs', hne, heq⟩ := h
  exact ⟨s, mem_fedStrings.mpr hs, s', mem_fedStrings.mpr hs', hne, heq⟩

/-- A collision does not depend on the order of the files. -/
theorem FedCollision.symm (h : FedCollision sha256 data data') :
    FedCollision sha256 data' data := by
  obtain ⟨s, hs, s', hs', hne, heq⟩ := h
  exact ⟨s', hs', s, hs, hne.symm, heq.symm⟩

/-- Files with equally many chunks and one tree are equal. -/
theorem eq_of_chunkTree_eq
    (hlen : (leafInputs chunkSize data).length = (leafInputs chunkSize data').length)
    (h : chunkTree data = chunkTree data') : data = data' := by
  have hleaves := HashTree.build_injective hlen h
  rw [← flatten_leafInputs chunkSize_pos data, hleaves, flatten_leafInputs chunkSize_pos]

/-- A file whose first leaf is shorter than a chunk is that leaf. -/
theorem leafInputs_of_short {s : Bytes} {rest : List Bytes}
    (h : leafInputs chunkSize data = s :: rest) (hs : s.length < chunkSize) :
    leafInputs chunkSize data = [data] := by
  by_cases hdata : data = []
  · rw [leafInputs, if_pos hdata, hdata]
  · rw [leafInputs, if_neg hdata] at h ⊢
    rw [chunks_of_ne_nil chunkSize_pos hdata] at h ⊢
    obtain ⟨hfirst, _⟩ := List.cons.inj h
    have hlen := congrArg List.length hfirst
    rw [List.length_take] at hlen
    rw [List.take_of_length_le (by omega), List.drop_of_length_le (by omega), chunks_nil]

/-- One chunk makes a leaf. -/
theorem chunkTree_of_leafInputs {s : Bytes} (h : leafInputs chunkSize data = [s]) :
    chunkTree data = .leaf s := by
  unfold chunkTree
  simp only [h]
  exact HashTree.build_singleton s _

/-- Of two trees with one digest, the shallower is a leaf that spells the digests
under the other root, or the files collide. -/
theorem spells_of_shallow {d d' : Nat} (hd : d < d') (ht : HashTree.Perfect d (chunkTree data))
    (ht' : HashTree.Perfect d' (chunkTree data'))
    (heq : (chunkTree data).digest joinDigests sha256 =
      (chunkTree data').digest joinDigests sha256) :
    FedCollision sha256 data data' ∨ SpellsDigests sha256 data data' := by
  rcases HashTree.digest_eq_shallow joinDigests_injective hd ht ht' heq with hjoin | hcoll
  · obtain ⟨copies, hleaves⟩ :=
      HashTree.leaves_build (leafInputs chunkSize data) (leafInputs_ne_nil chunkSize_pos data)
    obtain ⟨s, rest, hs⟩ := List.exists_cons_of_ne_nil (leafInputs_ne_nil chunkSize_pos data)
    -- the first leaf is a join of digests, so it is shorter than a chunk
    obtain ⟨a, b, hab⟩ := hjoin s (by rw [chunkTree, hleaves, hs]; simp)
    have hshort : s.length < chunkSize := by
      rw [hab, length_joinDigests]
      decide
    have htree := chunkTree_of_leafInputs (leafInputs_of_short hs hshort)
    rw [htree] at heq
    cases hother : chunkTree data' with
    | leaf s' =>
      rw [hother] at ht'
      cases d' with
      | zero => omega
      | succ d' => exact ht'.elim
    | node left right =>
      rw [hother] at heq
      by_cases hspell : data = joinDigests (left.digest joinDigests sha256)
          (right.digest joinDigests sha256)
      · exact Or.inr ⟨left, right, hother, hspell⟩
      · refine Or.inl ⟨data, mem_fedStrings.mpr ?_, _, mem_fedStrings.mpr ?_, hspell, heq⟩
        · rw [htree]
          simp [HashTree.inputs]
        · rw [hother]
          simp [HashTree.inputs]
  · exact Or.inl (fedCollision_of_collide hcoll)

/-- Different files with one root collide or are indistinct. -/
theorem collision_or_indistinct (hne : data ≠ data')
    (heq : (chunkTree data).digest joinDigests sha256 =
      (chunkTree data').digest joinDigests sha256) :
    FedCollision sha256 data data' ∨ Indistinct sha256 data data' := by
  obtain ⟨d, hd⟩ : ∃ d, HashTree.Perfect d (chunkTree data) := HashTree.build_perfect _ _
  obtain ⟨d', hd'⟩ : ∃ d, HashTree.Perfect d (chunkTree data') := HashTree.build_perfect _ _
  rcases Nat.lt_trichotomy d d' with hlt | rfl | hlt
  · rcases spells_of_shallow hlt hd hd' heq with hcoll | hspell
    · exact Or.inl hcoll
    · exact Or.inr (.spells hspell)
  · rcases HashTree.digest_eq_same joinDigests_injective hd hd' heq with htree | hcoll
    · refine Or.inr (.sameTree ?_ htree)
      intro hlen
      exact hne (eq_of_chunkTree_eq hlen htree)
    · exact Or.inl (fedCollision_of_collide hcoll)
  · rcases spells_of_shallow hlt hd' hd heq.symm with hcoll | hspell
    · exact Or.inl hcoll.symm
    · exact Or.inr (.spelled hspell)

/-- A file that spells the digests under another root has that root. -/
theorem SpellsDigests.digest_eq (h : SpellsDigests sha256 data data') :
    (chunkTree data).digest joinDigests sha256 = (chunkTree data').digest joinDigests sha256 := by
  obtain ⟨left, right, hother, hspell⟩ := h
  obtain ⟨s, rest, hs⟩ := List.exists_cons_of_ne_nil (leafInputs_ne_nil chunkSize_pos data)
  have hdata : data.length < chunkSize := by
    rw [hspell, length_joinDigests]
    decide
  have hflat := flatten_leafInputs chunkSize_pos data
  have hshort : s.length < chunkSize := by
    rw [hs, List.flatten_cons] at hflat
    have hlen := congrArg List.length hflat
    rw [List.length_append] at hlen
    omega
  rw [chunkTree_of_leafInputs (leafInputs_of_short hs hshort), hother]
  exact congrArg sha256 hspell

/-- A file read in one piece. -/
def File.whole (data : Bytes) : File := { rest := data, outcomes := fun _ => .ok data.length }

theorem File.whole_reads (data : Bytes) : (File.whole data).Reads := fun _ => ⟨_, rfl⟩

/-- The model hash of a file read in one piece. -/
theorem computeModelHash_whole (data : Bytes) :
    computeModelHash sha256 (.ok (File.whole data)) =
      .ok ((chunkTree data).digest joinDigests sha256) := by
  rw [← merkleRoot_eq_digest]
  exact hashFileMerkle_of_reads chunkSize_pos (File.whole_reads data)

/-- A full chunk of one byte. -/
def block (b : UInt8) : Bytes := List.replicate chunkSize b

/-- Three full chunks. -/
def threeBlocks : Bytes := block 0 ++ (block 1 ++ (block 2 ++ []))

/-- The same three chunks with the last one repeated. -/
def fourBlocks : Bytes := block 0 ++ (block 1 ++ (block 2 ++ (block 2 ++ [])))

/-- The digest of equal bytes. -/
def byteDigest (b : UInt8) : Digest := List.Vector.replicate 32 b

/-- A digest that is filled with a byte determines the byte. -/
theorem byteDigest_injective : Function.Injective byteDigest := by
  intro a b h
  have hlist := congrArg List.Vector.toList h
  exact (List.cons.inj hlist).1

/-- A digest function that tells apart all strings fed for the two files. -/
def headDigest (s : Bytes) : Digest :=
  byteDigest (if s.length = 64 then s.headD 0 + 10 else s.headD 0)

/-- A block is one chunk long. -/
theorem length_block (b : UInt8) : (block b).length = chunkSize := List.length_replicate

/-- The repeated chunk makes the second file longer. -/
theorem threeBlocks_ne : threeBlocks ≠ fourBlocks := by
  intro heq
  have hrest : [] = block 2 ++ [] :=
    List.append_cancel_left (List.append_cancel_left (List.append_cancel_left heq))
  have hlen : (block 2).length = 0 := by
    rw [← List.append_nil (block 2), ← hrest, List.length_nil]
  rw [length_block] at hlen
  exact Nat.ne_of_gt chunkSize_pos hlen

/-- A block in front is the first chunk. -/
theorem leafInputs_block (b : UInt8) (data : Bytes) :
    leafInputs chunkSize (block b ++ data) = block b :: chunks chunkSize data := by
  have hne : block b ++ data ≠ [] := by
    intro hnil
    have hlen := length_block b
    rw [(List.append_eq_nil_iff.mp hnil).1] at hlen
    exact absurd hlen (by decide)
  rw [leafInputs, if_neg hne, chunks_append chunkSize_pos (length_block b)]

/-- Three blocks are three chunks. -/
theorem leafInputs_threeBlocks :
    leafInputs chunkSize threeBlocks = [block 0, block 1, block 2] := by
  rw [threeBlocks, leafInputs_block, chunks_append chunkSize_pos (length_block 1),
    chunks_append chunkSize_pos (length_block 2), chunks_nil]

/-- With the last block repeated they are four. -/
theorem leafInputs_fourBlocks :
    leafInputs chunkSize fourBlocks = [block 0, block 1, block 2, block 2] := by
  rw [fourBlocks, leafInputs_block, chunks_append chunkSize_pos (length_block 1),
    chunks_append chunkSize_pos (length_block 2), chunks_append chunkSize_pos (length_block 2),
    chunks_nil]

/-- The odd third leaf is completed to what the fourth chunk gives. -/
theorem chunkTree_threeBlocks : chunkTree threeBlocks = chunkTree fourBlocks := by
  have hlevel : pairUp HashTree.node ([block 0, block 1, block 2].map HashTree.leaf) =
      pairUp HashTree.node ([block 0, block 1, block 2, block 2].map HashTree.leaf) := by
    simp only [List.map_cons, List.map_nil, pairUp]
  have hclimb : climb HashTree.node ([block 0, block 1, block 2].map HashTree.leaf) =
      climb HashTree.node ([block 0, block 1, block 2, block 2].map HashTree.leaf) := by
    rw [climb_of_lt (by simp), hlevel, ← climb_of_lt (by simp)]
  unfold chunkTree HashTree.build top
  simp only [leafInputs_threeBlocks, leafInputs_fourBlocks, hclimb]

/-- A block is hashed to its byte. -/
theorem headDigest_block (b : UInt8) : headDigest (block b) = byteDigest b := by
  have hlen : (block b).length ≠ 64 := by
    rw [length_block]
    decide
  have hhead : (block b).headD 0 = b := by
    have hsucc : chunkSize = (chunkSize - 1) + 1 := by decide
    rw [block, hsucc, List.replicate_succ]
    rfl
  rw [headDigest, if_neg hlen, hhead]

/-- Two filled digests are hashed to the first byte and ten. -/
theorem headDigest_join (a b : UInt8) :
    headDigest (joinDigests (byteDigest a) (byteDigest b)) = byteDigest (a + 10) := by
  rw [headDigest, if_pos (length_joinDigests _ _)]
  rfl

/-- The strings fed for the two files: the three chunks and the joins above them. -/
def blockInputs : List Bytes :=
  [block 0, block 1, block 2, joinDigests (byteDigest 0) (byteDigest 1),
    joinDigests (byteDigest 2) (byteDigest 2),
    joinDigests (byteDigest (0 + 10)) (byteDigest (2 + 10))]

/-- Nothing else is fed for the two files. -/
theorem fedStrings_blocks {s : Bytes}
    (h : s ∈ fedStrings headDigest threeBlocks ++ fedStrings headDigest fourBlocks) :
    s ∈ blockInputs := by
  have hthree : fedStrings headDigest threeBlocks = blockInputs := by
    rw [fedStrings, leafInputs_threeBlocks]
    simp only [List.map_cons, List.map_nil, headDigest_block]
    rw [climbInputs, if_pos (by simp)]
    simp only [pairUp, headDigest_join]
    rw [climbInputs, if_pos (by simp)]
    simp only [pairUp]
    rw [climbInputs, if_neg (by simp)]
    simp only [blockInputs, List.cons_append, List.nil_append]
  have hfour : ∀ s ∈ fedStrings headDigest fourBlocks, s ∈ blockInputs := by
    intro s hs
    rw [mem_fedStrings, ← chunkTree_threeBlocks, ← mem_fedStrings, hthree] at hs
    exact hs
  rcases List.mem_append.mp h with h | h
  · rwa [hthree] at h
  · exact hfour s h

/-- The digest function tells the strings apart. -/
theorem headDigest_inj {s s' : Bytes}
    (hs : s ∈ fedStrings headDigest threeBlocks ++ fedStrings headDigest fourBlocks)
    (hs' : s' ∈ fedStrings headDigest threeBlocks ++ fedStrings headDigest fourBlocks)
    (heq : headDigest s = headDigest s') : s = s' := by
  have hmap : blockInputs.map headDigest =
      [0, 1, 2, 0 + 10, 2 + 10, 0 + 10 + 10].map byteDigest := by
    simp only [blockInputs, List.map_cons, List.map_nil, headDigest_block, headDigest_join]
  have hnodup : (blockInputs.map headDigest).Nodup := by
    rw [hmap]
    exact List.Nodup.map byteDigest_injective (by decide)
  exact List.inj_on_of_nodup_map hnodup (fedStrings_blocks hs) (fedStrings_blocks hs') heq

/-- Two different files share a model hash only through a SHA-256 collision between
strings fed for them or by being indistinct, and indistinct files always share it. -/
theorem computeModelHash_eq {file file' : File} {root root' : Digest}
    (h : computeModelHash sha256 (.ok file) = .ok root)
    (h' : computeModelHash sha256 (.ok file') = .ok root') (hne : file.rest ≠ file'.rest) :
    (root = root' → FedCollision sha256 file.rest file'.rest ∨
        Indistinct sha256 file.rest file'.rest) ∧
      (Indistinct sha256 file.rest file'.rest → root = root') := by
  have hroot := hashFileMerkle_eq_ok chunkSize_pos h
  have hroot' := hashFileMerkle_eq_ok chunkSize_pos h'
  rw [merkleRoot_eq_digest] at hroot hroot'
  subst hroot hroot'
  refine ⟨collision_or_indistinct hne, ?_⟩
  intro hind
  cases hind with
  | sameTree _ htree => rw [htree]
  | spells hspell => exact hspell.digest_eq
  | spelled hspell => exact hspell.digest_eq.symm

/-- Two files of three and four chunks share their model hash, and so they are indistinct. -/
theorem computeModelHash_eq_blocks : ∃ root : Digest,
    computeModelHash headDigest (.ok (File.whole threeBlocks)) = .ok root ∧
      computeModelHash headDigest (.ok (File.whole fourBlocks)) = .ok root ∧
      Indistinct headDigest threeBlocks fourBlocks := by
  have hthree := @computeModelHash_whole headDigest threeBlocks
  have hfour := @computeModelHash_whole headDigest fourBlocks
  rw [← chunkTree_threeBlocks] at hfour
  obtain ⟨hshared, -⟩ := computeModelHash_eq hthree hfour threeBlocks_ne
  rcases hshared rfl with ⟨s, hs, s', hs', hne, heq⟩ | hindistinct
  · exact (hne (headDigest_inj (List.mem_append_left _ hs) (List.mem_append_right _ hs') heq)).elim
  · exact ⟨_, hthree, hfour, hindistinct⟩

/-- Two different files whose model hashes agree for every digest function, although
a digest function without a collision among the strings fed for them exists. -/
theorem computeModelHash_threeBlocks :
    threeBlocks ≠ fourBlocks ∧
      (∀ sha256, computeModelHash sha256 (.ok (File.whole threeBlocks)) =
        computeModelHash sha256 (.ok (File.whole fourBlocks))) ∧
      ∀ s ∈ fedStrings headDigest threeBlocks ++ fedStrings headDigest fourBlocks,
        ∀ s' ∈ fedStrings headDigest threeBlocks ++ fedStrings headDigest fourBlocks,
          headDigest s = headDigest s' → s = s' := by
  refine ⟨threeBlocks_ne, ?_, ?_⟩
  · intro sha256
    rw [computeModelHash_whole, computeModelHash_whole, chunkTree_threeBlocks]
  · exact fun s hs s' hs' => headDigest_inj hs hs'

end Veriai
