import Veriai.Core.Bytes
import Veriai.Core.Checklist
import Veriai.Core.HashTree

/-!
# The model hash

`hash_file_merkle`: the reading loops over an open file whose `read` calls may
return fewer bytes than asked or fail, the leaf hashes, and the levels above
them. Whatever the reads return, a run that succeeds hashes the chunks of the
file.
-/

namespace Veriai

/-- An `io::Error`, by its text. -/
abbrev IoError := String

/-- A SHA-256 digest. -/
abbrev Digest := ByteArr 32

/-- An open file: the bytes still to be read, and how the coming `read` calls turn
out. A call that succeeds is bounded by its outcome but hands over at least one byte
while any remain. -/
structure File where
  rest : Bytes
  outcomes : Nat → Except IoError Nat

/-- `File::read` into a buffer with room for `requested` bytes. -/
def File.read (file : File) (requested : Nat) : Except IoError (Bytes × File) := do
  let bound ← file.outcomes 0
  let n := min (max 1 bound) requested
  return (file.rest.take n,
    { rest := file.rest.drop n, outcomes := fun i => file.outcomes (i + 1) })

/-- The inner loop: read until the buffer is full or a read returns nothing. -/
def fillBuffer (size : Nat) (file : File) (buffer : Bytes) : Except IoError (Bytes × File) :=
  if buffer.length < size then
    match file.read (size - buffer.length) with
    | .error e => .error e
    | .ok (bytes, file') =>
      if bytes = [] then .ok (buffer, file')
      else fillBuffer size file' (buffer ++ bytes)
  else .ok (buffer, file)
termination_by size - buffer.length
decreasing_by
  have hpos : 0 < bytes.length := List.length_pos_iff.mpr (by assumption)
  rw [List.length_append]
  omega

/-- A read hands over a prefix of the rest, empty only when nothing is asked or left. -/
theorem File.read_eq_ok {file file' : File} {requested : Nat} {bytes : Bytes}
    (h : file.read requested = .ok (bytes, file')) :
    ∃ n ≤ requested, bytes = file.rest.take n ∧ file'.rest = file.rest.drop n ∧
      (0 < requested → 0 < n) := by
  simp only [read, bind_eq_ok] at h
  obtain ⟨bound, _, h⟩ := h
  obtain ⟨rfl, rfl⟩ := Prod.mk.inj (Except.ok.inj h)
  refine ⟨min (max 1 bound) requested, Nat.min_le_right _ _, rfl, rfl, ?_⟩
  intro hpos
  have hone : 1 ≤ max 1 bound := Nat.le_max_left 1 bound
  omega

/-- However the reads are split, the buffer receives the next bytes up to its size. -/
theorem fillBuffer_eq_ok {size : Nat} {file file' : File} {buffer filled : Bytes}
    (h : fillBuffer size file buffer = .ok (filled, file')) :
    filled = buffer ++ file.rest.take (size - buffer.length) ∧
      file'.rest = file.rest.drop (size - buffer.length) := by
  induction file, buffer using fillBuffer.induct size with
  | case1 file buffer hroom e hread =>
    rw [fillBuffer, if_pos hroom, hread] at h
    cases h
  | case2 file buffer hroom file₁ hread =>
    rw [fillBuffer, if_pos hroom, hread] at h
    obtain ⟨rfl, rfl⟩ := Prod.mk.inj (Except.ok.inj h)
    obtain ⟨n, _, hbytes, hrest, hpos⟩ := File.read_eq_ok hread
    -- the read returned nothing although there was room: the file is at its end
    have hend : file.rest = [] := by
      rcases List.take_eq_nil_iff.mp hbytes.symm with hzero | hnil
      · have := hpos (by omega)
        omega
      · exact hnil
    rw [hend] at hrest
    simp [hend, hrest]
  | case3 file buffer hroom bytes file₁ hread hne ih =>
    rw [fillBuffer, if_pos hroom, hread] at h
    simp only [if_neg hne] at h
    obtain ⟨hfilled, hrest₁⟩ := ih h
    obtain ⟨n, hn, hbytes, hrest, _⟩ := File.read_eq_ok hread
    have hlen : bytes.length = min n file.rest.length := by rw [hbytes, List.length_take]
    rw [hrest] at hfilled hrest₁
    rw [List.length_append] at hfilled hrest₁
    by_cases hle : n ≤ file.rest.length
    · have hsplit : size - buffer.length = n + (size - (buffer.length + bytes.length)) := by
        omega
      rw [hsplit, List.take_add, ← List.drop_drop]
      exact ⟨by rw [hfilled, hbytes, List.append_assoc], hrest₁⟩
    · have hall : file.rest.take n = file.rest := List.take_of_length_le (by omega)
      have hnone : file.rest.drop n = [] := List.drop_of_length_le (by omega)
      have hbound : file.rest.length ≤ size - buffer.length := by omega
      rw [hnone] at hfilled hrest₁
      rw [List.take_of_length_le hbound, List.drop_of_length_le hbound]
      exact ⟨by rw [hfilled, hbytes, hall]; simp, by simpa using hrest₁⟩
  | case4 file buffer hfull =>
    rw [fillBuffer, if_neg hfull] at h
    obtain ⟨rfl, rfl⟩ := Prod.mk.inj (Except.ok.inj h)
    have hzero : size - buffer.length = 0 := by omega
    simp [hzero]

/-- The outer loop: hash each filled buffer until one is empty or not full. -/
def readLeaves (sha256 : Bytes → Digest) (size : Nat) (file : File) (leaves : List Digest) :
    Except IoError (List Digest) :=
  match _hfill : fillBuffer size file [] with
  | .error e => .error e
  | .ok (buffer, file') =>
    if buffer.length = 0 then .ok leaves
    else if buffer.length < size then .ok (leaves ++ [sha256 buffer])
    else readLeaves sha256 size file' (leaves ++ [sha256 buffer])
termination_by file.rest.length
decreasing_by
  obtain ⟨hbuffer, hrest⟩ := fillBuffer_eq_ok _hfill
  have hlen : buffer.length = min size file.rest.length := by
    rw [hbuffer]
    simp
  rw [hrest, List.length_drop, List.length_nil]
  omega

/-- The hash of an inner node. -/
def hashPair (sha256 : Bytes → Digest) (left right : Digest) : Digest :=
  sha256 (left.toList ++ right.toList)

/-- `hash_file_merkle`, with its chunk size as a parameter. -/
def hashFileMerkle (sha256 : Bytes → Digest) (size : Nat) (opened : Except IoError File) :
    Except IoError Digest := do
  let file ← opened
  let leaves ← readLeaves sha256 size file []
  if h : leaves = [] then return sha256 []
  else return top (hashPair sha256) leaves h

/-- `CHUNK_SIZE`. -/
def chunkSize : Nat := 4 * 1024 * 1024

/-- `compute_model_hash` of an attempt to open the file. -/
def computeModelHash (sha256 : Bytes → Digest) (opened : Except IoError File) :
    Except IoError Digest :=
  hashFileMerkle sha256 chunkSize opened

/-- The chunks of a file: full ones, and what is left over. -/
def chunks (size : Nat) (data : Bytes) : List Bytes :=
  if data = [] ∨ size = 0 then []
  else data.take size :: chunks size (data.drop size)
termination_by data.length
decreasing_by
  rename_i h
  have hpos : 0 < data.length := List.length_pos_iff.mpr (fun hnil => h (Or.inl hnil))
  rw [List.length_drop]
  omega

theorem chunks_nil (size : Nat) : chunks size [] = [] := by
  rw [chunks, if_pos (Or.inl rfl)]

theorem chunks_of_ne_nil {size : Nat} {data : Bytes} (hsize : 0 < size) (h : data ≠ []) :
    chunks size data = data.take size :: chunks size (data.drop size) := by
  rw [chunks, if_neg]
  rintro (hnil | hzero)
  · exact h hnil
  · omega

/-- The chunks in sequence are the file. -/
theorem flatten_chunks {size : Nat} (hsize : 0 < size) (data : Bytes) :
    (chunks size data).flatten = data := by
  induction data using chunks.induct size with
  | case1 data h =>
    rcases h with rfl | hzero
    · rw [chunks_nil]
      rfl
    · omega
  | case2 data h ih =>
    rw [chunks_of_ne_nil hsize (fun hnil => h (Or.inl hnil)), List.flatten_cons, ih,
      List.take_append_drop]

/-- A full chunk in front of a file is its first chunk. -/
theorem chunks_append {size : Nat} (hsize : 0 < size) {chunk data : Bytes}
    (hchunk : chunk.length = size) : chunks size (chunk ++ data) = chunk :: chunks size data := by
  have hne : chunk ++ data ≠ [] := by
    intro hnil
    rw [(List.append_eq_nil_iff.mp hnil).1, List.length_nil] at hchunk
    omega
  rw [chunks_of_ne_nil hsize hne, List.take_left' hchunk, List.drop_left' hchunk]

/-- One pass of the outer loop after its buffer is filled. -/
theorem readLeaves_of_ok {sha256 : Bytes → Digest} {size : Nat} {file file' : File}
    {leaves : List Digest} {buffer : Bytes} (h : fillBuffer size file [] = .ok (buffer, file')) :
    readLeaves sha256 size file leaves =
      if buffer.length = 0 then .ok leaves
      else if buffer.length < size then .ok (leaves ++ [sha256 buffer])
      else readLeaves sha256 size file' (leaves ++ [sha256 buffer]) := by
  rw [readLeaves]
  split
  · rename_i h'
    cases h'.symm.trans h
  · rename_i h'
    obtain ⟨rfl, rfl⟩ := Prod.mk.inj (Except.ok.inj (h'.symm.trans h))
    rfl

/-- The loops hash the chunks of the file, however its reads are split. -/
theorem readLeaves_eq_ok {sha256 : Bytes → Digest} {size : Nat} (hsize : 0 < size)
    {file : File} {leaves result : List Digest}
    (h : readLeaves sha256 size file leaves = .ok result) :
    result = leaves ++ (chunks size file.rest).map sha256 := by
  induction file, leaves using readLeaves.induct sha256 size with
  | case1 file leaves e hfill =>
    rw [readLeaves] at h
    split at h
    · cases h
    · rename_i hfill'
      cases hfill'.symm.trans hfill
  | case2 file leaves buffer file' hfill hempty =>
    rw [readLeaves_of_ok hfill, if_pos hempty] at h
    obtain rfl := Except.ok.inj h
    obtain ⟨hbuffer, _⟩ := fillBuffer_eq_ok hfill
    have hnil : file.rest = [] := by
      have hlen := congrArg List.length hbuffer
      simp only [List.nil_append, List.length_nil, Nat.sub_zero, List.length_take] at hlen
      exact List.length_eq_zero_iff.mp (by omega)
    rw [hnil, chunks_nil]
    simp
  | case3 file leaves buffer file' hfill hne hshort =>
    rw [readLeaves_of_ok hfill, if_neg hne, if_pos hshort] at h
    obtain rfl := Except.ok.inj h
    obtain ⟨hbuffer, _⟩ := fillBuffer_eq_ok hfill
    simp only [List.nil_append, List.length_nil, Nat.sub_zero] at hbuffer
    have hlen : buffer.length = min size file.rest.length := by
      rw [hbuffer, List.length_take]
    have hnil : file.rest ≠ [] := by
      intro hnil
      rw [hnil, List.length_nil] at hlen
      omega
    have hlast : file.rest.drop size = [] := List.drop_of_length_le (by omega)
    rw [chunks_of_ne_nil hsize hnil, hlast, chunks_nil, hbuffer]
    rfl
  | case4 file leaves buffer file' hfill hne hfull ih =>
    rw [readLeaves_of_ok hfill, if_neg hne, if_neg hfull] at h
    obtain ⟨hbuffer, hrest⟩ := fillBuffer_eq_ok hfill
    simp only [List.nil_append, List.length_nil, Nat.sub_zero] at hbuffer hrest
    have hlen : buffer.length = min size file.rest.length := by
      rw [hbuffer, List.length_take]
    have hnil : file.rest ≠ [] := by
      intro hnil
      rw [hnil, List.length_nil] at hlen
      omega
    rw [chunks_of_ne_nil hsize hnil, ← hbuffer, ← hrest, ih h, List.map_cons, List.append_assoc]
    rfl

/-- A file none of whose reads fails. -/
def File.Reads (file : File) : Prop := ∀ i, ∃ bound, file.outcomes i = .ok bound

theorem File.Reads.read {file : File} (h : file.Reads) (requested : Nat) :
    ∃ bytes file', file.read requested = .ok (bytes, file') ∧ file'.Reads := by
  obtain ⟨bound, hbound⟩ := h 0
  refine ⟨_, _, by rw [File.read, hbound]; rfl, ?_⟩
  intro i
  exact h (i + 1)

theorem File.Reads.fillBuffer {file : File} (h : file.Reads) (size : Nat) (buffer : Bytes) :
    ∃ filled file', Veriai.fillBuffer size file buffer = .ok (filled, file') ∧ file'.Reads := by
  induction file, buffer using fillBuffer.induct size with
  | case1 file buffer hroom e hread =>
    obtain ⟨bytes, file', hread', _⟩ := h.read (size - buffer.length)
    cases hread.symm.trans hread'
  | case2 file buffer hroom file₁ hread =>
    obtain ⟨bytes, file', hread', hreads⟩ := h.read (size - buffer.length)
    obtain ⟨rfl, rfl⟩ := Prod.mk.inj (Except.ok.inj (hread.symm.trans hread'))
    exact ⟨buffer, file₁, by rw [Veriai.fillBuffer, if_pos hroom, hread]; rfl, hreads⟩
  | case3 file buffer hroom bytes file₁ hread hne ih =>
    obtain ⟨bytes', file', hread', hreads⟩ := h.read (size - buffer.length)
    obtain ⟨rfl, rfl⟩ := Prod.mk.inj (Except.ok.inj (hread.symm.trans hread'))
    obtain ⟨filled, last, hfill, hlast⟩ := ih hreads
    refine ⟨filled, last, ?_, hlast⟩
    rw [Veriai.fillBuffer, if_pos hroom, hread]
    simp only [if_neg hne, hfill]
  | case4 file buffer hfull =>
    exact ⟨buffer, file, by rw [Veriai.fillBuffer, if_neg hfull], h⟩

/-- Without a failing read the loops end with the leaves. -/
theorem File.Reads.readLeaves {sha256 : Bytes → Digest} {size : Nat} (hsize : 0 < size)
    {file : File} {leaves : List Digest} (h : file.Reads) :
    readLeaves sha256 size file leaves =
      .ok (leaves ++ (chunks size file.rest).map sha256) := by
  have hends : ∃ result, Veriai.readLeaves sha256 size file leaves = .ok result := by
    induction file, leaves using readLeaves.induct sha256 size with
    | case1 file leaves e hfill =>
      obtain ⟨filled, file', hfill', _⟩ := h.fillBuffer size []
      cases hfill.symm.trans hfill'
    | case2 file leaves buffer file' hfill hempty =>
      exact ⟨leaves, by rw [readLeaves_of_ok hfill, if_pos hempty]⟩
    | case3 file leaves buffer file' hfill hne hshort =>
      exact ⟨_, by rw [readLeaves_of_ok hfill, if_neg hne, if_pos hshort]⟩
    | case4 file leaves buffer file' hfill hne hfull ih =>
      obtain ⟨filled, file₁, hfill', hreads⟩ := h.fillBuffer size []
      obtain ⟨rfl, rfl⟩ := Prod.mk.inj (Except.ok.inj (hfill.symm.trans hfill'))
      obtain ⟨result, hresult⟩ := ih hreads
      exact ⟨result, by rw [readLeaves_of_ok hfill, if_neg hne, if_neg hfull, hresult]⟩
  obtain ⟨result, hresult⟩ := hends
  rw [hresult, readLeaves_eq_ok hsize hresult]

/-- The strings hashed as leaves: the chunks, or the empty string of an empty file. -/
def leafInputs (size : Nat) (data : Bytes) : List Bytes :=
  if data = [] then [[]] else chunks size data

theorem leafInputs_ne_nil {size : Nat} (hsize : 0 < size) (data : Bytes) :
    leafInputs size data ≠ [] := by
  unfold leafInputs
  by_cases h : data = []
  · simp [h]
  · rw [if_neg h, chunks_of_ne_nil hsize h]
    simp

/-- The leaf inputs in sequence are the file. -/
theorem flatten_leafInputs {size : Nat} (hsize : 0 < size) (data : Bytes) :
    (leafInputs size data).flatten = data := by
  unfold leafInputs
  by_cases h : data = []
  · simp [h]
  · rw [if_neg h, flatten_chunks hsize]

/-- The Merkle root of a file's bytes. -/
def merkleRoot (sha256 : Bytes → Digest) (size : Nat) (hsize : 0 < size) (data : Bytes) :
    Digest :=
  top (hashPair sha256) ((leafInputs size data).map sha256)
    (by simpa using leafInputs_ne_nil hsize data)

private theorem hashLeaves_eq {sha256 : Bytes → Digest} {size : Nat} (hsize : 0 < size)
    {data : Bytes} {leaves : List Digest} (h : leaves = (chunks size data).map sha256) :
    (if h : leaves = [] then pure (sha256 []) else pure (top (hashPair sha256) leaves h) :
      Except IoError Digest) = .ok (merkleRoot sha256 size hsize data) := by
  subst h
  by_cases hdata : data = []
  · have hempty : (chunks size data).map sha256 = [] := by
      rw [hdata, chunks_nil]
      rfl
    have hleaf : leafInputs size data = [[]] := by rw [leafInputs, if_pos hdata]
    have hclimb : climb (hashPair sha256) [sha256 []] = [sha256 []] := climb_of_le (Nat.le_refl 1)
    rw [dif_pos hempty]
    simp only [merkleRoot, top, hleaf, List.map_cons, List.map_nil, hclimb, List.head_cons]
    rfl
  · have hleaf : leafInputs size data = chunks size data := by
      rw [leafInputs, if_neg hdata]
    have hne : (chunks size data).map sha256 ≠ [] := by
      rw [chunks_of_ne_nil hsize hdata]
      simp
    rw [dif_neg hne]
    simp only [merkleRoot, hleaf]
    rfl

/-- A run that succeeds returns the Merkle root of the bytes of the file. -/
theorem hashFileMerkle_eq_ok {sha256 : Bytes → Digest} {size : Nat} (hsize : 0 < size)
    {file : File} {root : Digest} (h : hashFileMerkle sha256 size (.ok file) = .ok root) :
    root = merkleRoot sha256 size hsize file.rest := by
  simp only [hashFileMerkle, bind_eq_ok] at h
  obtain ⟨file', hfile, leaves, hleaves, h⟩ := h
  obtain rfl := Except.ok.inj hfile
  have hread := readLeaves_eq_ok hsize hleaves
  rw [List.nil_append] at hread
  exact Except.ok.inj (h.symm.trans (hashLeaves_eq hsize hread))

/-- A file whose reads do not fail is hashed. -/
theorem hashFileMerkle_of_reads {sha256 : Bytes → Digest} {size : Nat} (hsize : 0 < size)
    {file : File} (h : file.Reads) : hashFileMerkle sha256 size (.ok file) =
      .ok (merkleRoot sha256 size hsize file.rest) := by
  have hread : readLeaves sha256 size file [] = .ok ((chunks size file.rest).map sha256) :=
    h.readLeaves hsize
  simp only [hashFileMerkle, hread, bind, Except.bind]
  exact hashLeaves_eq hsize rfl

end Veriai
