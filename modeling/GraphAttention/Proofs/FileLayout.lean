import GraphAttention.Proofs.Entries
import GraphAttention.Proofs.Layout

/-!
# The Layout of Parameter Files

The layout of a file is put together from numbers and lists of them. A tensor is
its kind, a version, its axis lengths and its elements, and a file is a list of
tensors. The elements come in the order of their row-major positions and each is
the word it is stored as, so a number that is not one keeps its payload.

All numbers in a tensor are small enough for their width, because a tensor has
room for its axes and its elements in memory. The number of tensors is the only
one that could be too large.

## Main definitions

* `IsElement`, `IsTensor`, `IsFile`: The layout of a file and of its parts.
* `rowMajor`: The elements of a tensor in order.

## Theorems

* `rowMajor_eq`: The elements are stored in this order.
* `decode_reads`: Reading succeeds exactly on what begins with a file.
* `encode_writes`: A file of given tensors is what is written for them.
* `decode_eq_some_iff`: What is read is what was written.
* `decode_encode`: What is written is read back, whatever follows it.
-/

namespace GraphAttention

namespace ParameterFile

/-- An element as the word it is stored as. -/
def IsElement (d : DType) : Layout d.Elem := fun x => IsNumber d.width (d.word x)

/-- The elements of a tensor by their indices in row-major order. -/
def rowMajor (t : Tensor) : List t.dtype.Elem :=
  (List.range t.count).map fun k => t.array.get (t.shape.unravel k)

/-- The kind in four bytes, the version in one, the axis lengths in eight each
    and the elements in row-major order, both lists with their lengths. -/
def IsTensor : Layout Tensor := fun t bytes =>
  ∃ kind ver axes elements, IsNumber 4 t.dtype.code kind ∧ IsNumber 1 version ver ∧
    IsCounted (IsNumber 8) t.shape axes ∧ IsCounted (IsElement t.dtype) (rowMajor t) elements ∧
    bytes = kind ++ ver ++ axes ++ elements

/-- A list of tensors with its length. -/
def IsFile : Layout (List Tensor) := IsCounted IsTensor

/-! ### Elements and tensors -/

theorem word_lt (d : DType) (x : d.Elem) : d.word x < 256 ^ d.width := by
  cases d with
  | float32 => exact x.bits.toNat_lt
  | float64 => exact x.bits.toNat_lt
  | int64 => exact x.toUInt64.toNat_lt
  | uint8 => exact UInt8.toNat_lt x

theorem ofWord_word (d : DType) (x : d.Elem) : d.ofWord (d.word x) = x := by
  cases d with
  | float32 => simp [DType.word, DType.ofWord]
  | float64 => simp [DType.word, DType.ofWord]
  | int64 => simp [DType.word, DType.ofWord]
  | uint8 => simp [DType.word, DType.ofWord]

theorem word_ofWord (d : DType) {w : Nat} (h : w < 256 ^ d.width) : d.word (d.ofWord w) = w := by
  cases d with
  | float32 => exact UInt32.toNat_ofNat_of_lt' h
  | float64 => exact UInt64.toNat_ofNat_of_lt' h
  | int64 =>
    rw [DType.word, DType.ofWord, UInt64.toUInt64_toInt64]
    exact UInt64.toNat_ofNat_of_lt' h
  | uint8 => exact UInt8.toNat_ofNat_of_lt' h

theorem ofCode_code (d : DType) : DType.ofCode? d.code = some d := by
  cases d <;> rfl

theorem code_of_ofCode {d : DType} {code : Nat} (h : DType.ofCode? code = some d) :
    d.code = code := by
  unfold DType.ofCode? at h
  split at h <;> cases h <;> rfl

/-- The elements by their indices are the elements as they are stored. -/
theorem rowMajor_eq (t : Tensor) : rowMajor t = t.array.toList := by
  refine List.ext_getElem ?_ fun k hk hk' => ?_
  · simp [rowMajor, Tensor.count, Tensor.shape, DenseArray.toList, t.array.size_data]
  · have hsize : k < t.array.shape.size := by simpa [rowMajor, Tensor.count, Tensor.shape] using hk
    have hdata : k < t.array.data.size := by rwa [t.array.size_data]
    simp only [rowMajor, List.getElem_map, List.getElem_range, DenseArray.get, Tensor.shape,
      Shape.ravel_unravel hsize, DenseArray.toList, Array.getElem_toList]
    simp [hdata]

/-- The words of a list of elements, and no other words, can be elements. -/
theorem isCounted_words (d : DType) (words : List Nat) (bytes : List UInt8) :
    IsCounted (IsNumber d.width) words bytes ↔
      ∃ xs : List d.Elem, words = xs.map d.word ∧ IsCounted (IsElement d) xs bytes := by
  constructor
  · intro h
    -- What is read in so many bytes is small enough to be a word again.
    have hsmall := ((encodeList_writes (encodeNat_writes d.width) _ _).mp h).1.2
    have hwords : (words.map d.ofWord).map d.word = words := by
      rw [List.map_map]
      exact (List.map_congr_left fun w hw => word_ofWord d (hsmall w hw)).trans (List.map_id words)
    refine ⟨words.map d.ofWord, hwords.symm, ?_⟩
    rw [← hwords] at h
    exact (isCounted_map (f := d.word)).mp h
  · rintro ⟨xs, rfl, h⟩
    exact (isCounted_map (f := d.word)).mpr h

theorem map_ofWord_word (d : DType) (xs : List d.Elem) :
    (xs.map d.word).map d.ofWord = xs := by
  rw [List.map_map]
  exact (List.map_congr_left fun x _ => ofWord_word d x).trans (List.map_id xs)

theorem ofElements_eq_some {d : DType} {data : Array d.Elem} {s : Shape} {t : Tensor} :
    (Tensor.ofElements d data s).toOption = some t ↔
      ∃ (h : data.size = s.size) (room : Shape.Allocatable d.width s),
        t = ⟨d, ⟨s, data, h⟩, room⟩ := by
  rw [← Tensor.ofElements_eq_ok_iff]
  cases Tensor.ofElements d data s with
  | error e => exact iff_of_false nofun nofun
  | ok u => exact ⟨fun h => congrArg Except.ok (Option.some.inj h), fun h => by rw [h]; rfl⟩

theorem decodeTensor_reads : Reads decodeTensor IsTensor := by
  intro bytes t rest
  simp only [decodeTensor, Option.bind_eq_bind, Option.bind_eq_some_iff]
  constructor
  · rintro ⟨⟨code, r₁⟩, hcode, d, hd, ⟨found, r₂⟩, hfound, hrest⟩
    split at hrest
    · cases hrest
    · rename_i hversion
      obtain rfl : found = version := not_not.mp hversion
      -- Each field is taken off the front of what the one before it left.
      simp only [Option.bind_eq_some_iff] at hrest
      rcases hrest with ⟨⟨s, r₃⟩, hshape, ⟨words, r₄⟩, hwords, t', ht, hresult⟩
      cases hresult
      rcases (decodeNat_reads 4 _ _ _).mp hcode with ⟨kind, hkind, rfl⟩
      rcases (decodeNat_reads 1 _ _ _).mp hfound with ⟨ver, hver, rfl⟩
      rcases (decodeList_reads (decodeNat_reads 8) _ _ _).mp hshape with ⟨axes, haxes, rfl⟩
      rcases (decodeList_reads (decodeNat_reads d.width) _ _ _).mp hwords with
        ⟨elements, helements, rfl⟩
      rcases (isCounted_words d _ _).mp helements with ⟨xs, rfl, hcounted⟩
      rcases ofElements_eq_some.mp ht with ⟨hsize, room, rfl⟩
      rcases code_of_ofCode hd with rfl
      refine ⟨kind ++ ver ++ axes ++ elements, ⟨kind, ver, axes, elements, hkind, hver, haxes, ?_,
        rfl⟩, by simp only [List.append_assoc]⟩
      rw [rowMajor_eq]
      simpa only [DenseArray.toList, map_ofWord_word] using hcounted
  · rintro ⟨front, ⟨kind, ver, axes, elements, hkind, hver, haxes, helements, rfl⟩, rfl⟩
    -- The tensor is known, and its own size and room let it be made again.
    rcases t with ⟨d, ⟨s, data, hsize⟩, room⟩
    rw [rowMajor_eq] at helements
    simp only [List.append_assoc]
    refine ⟨(d.code, ver ++ (axes ++ (elements ++ rest))), ?_, d, ofCode_code d,
      (version, axes ++ (elements ++ rest)), ?_, ?_⟩
    · exact (decodeNat_reads 4 _ _ _).mpr ⟨kind, hkind, rfl⟩
    · exact (decodeNat_reads 1 _ _ _).mpr ⟨ver, hver, rfl⟩
    · rw [if_neg (not_not.mpr rfl)]
      simp only [Option.bind_eq_some_iff]
      refine ⟨(s, elements ++ rest), ?_, (data.toList.map d.word, rest), ?_,
        ⟨d, ⟨s, data, hsize⟩, room⟩, ?_, rfl⟩
      · exact (decodeList_reads (decodeNat_reads 8) _ _ _).mpr ⟨axes, haxes, rfl⟩
      · exact (decodeList_reads (decodeNat_reads d.width) _ _ _).mpr
          ⟨elements, (isCounted_words d _ _).mpr ⟨data.toList, rfl, helements⟩, rfl⟩
      · exact ofElements_eq_some.mpr ⟨by simpa [map_ofWord_word] using hsize, room,
          by simp only [map_ofWord_word, Array.toArray_toList]⟩

theorem encodeTensor_writes : Writes encodeTensor IsTensor (fun _ => True) := by
  intro t bytes
  -- The room of the tensor bounds every number that is written.
  have hspan : Shape.span t.shape ≤ Shape.maxSpan := t.room.1.1
  have hcode : t.dtype.code < 256 ^ 4 := by cases t.dtype <;> decide
  have hrank : t.shape.length < 256 ^ 8 :=
    Nat.lt_of_le_of_lt t.room.1.2 (by decide)
  have haxes : ∀ n ∈ t.shape, n < 256 ^ 8 := fun n hn =>
    Nat.lt_of_le_of_lt (Nat.le_trans (Shape.le_span hn) hspan) (by decide)
  have hcount : t.array.toList.length < 256 ^ 8 := by
    have hsize : t.array.toList.length = Shape.size t.shape := t.array.size_data
    have hfew := Nat.le_trans (Nat.le_max_left _ _) (Shape.size_le_span t.shape)
    rw [hsize]
    exact Nat.lt_of_le_of_lt (Nat.le_trans hfew hspan) (by decide)
  have helement : Writes (fun x => encodeNat t.dtype.width (t.dtype.word x)) (IsElement t.dtype)
      (fun x => t.dtype.word x < 256 ^ t.dtype.width) := fun x =>
    encodeNat_writes t.dtype.width (t.dtype.word x)
  constructor
  · rintro ⟨kind, ver, axes, elements, hkind, hver, haxes, helements, rfl⟩
    rw [rowMajor_eq] at helements
    rcases (encodeNat_writes 4 _ _).mp hkind with ⟨-, rfl⟩
    rcases (encodeNat_writes 1 _ _).mp hver with ⟨-, rfl⟩
    rcases (encodeList_writes (encodeNat_writes 8) _ _).mp haxes with ⟨-, rfl⟩
    rcases (encodeList_writes helement _ _).mp helements with ⟨-, rfl⟩
    exact ⟨trivial, rfl⟩
  · rintro ⟨-, rfl⟩
    refine ⟨_, _, _, _, (encodeNat_writes 4 _ _).mpr ⟨hcode, rfl⟩,
      (encodeNat_writes 1 _ _).mpr ⟨by decide, rfl⟩,
      (encodeList_writes (encodeNat_writes 8) _ _).mpr ⟨⟨hrank, haxes⟩, rfl⟩, ?_, rfl⟩
    rw [rowMajor_eq]
    exact (encodeList_writes helement _ _).mpr ⟨⟨hcount, fun x _ => word_lt _ x⟩, rfl⟩

/-! ### Files -/

/-- Reading succeeds exactly on bytes that begin with a file. -/
theorem decode_reads : Reads decode IsFile := decodeList_reads decodeTensor_reads

/-- The file of some tensors is what is written for them, as long as there are
    few enough to be counted. -/
theorem encode_writes : Writes encode IsFile (fun ts => ts.length < 256 ^ 8) := by
  intro ts bytes
  rw [IsFile, encodeList_writes encodeTensor_writes ts bytes]
  simp only [implies_true, and_true, encode]

/-- What is read is what was written, and what follows it is left. -/
theorem decode_eq_some_iff {bytes rest : List UInt8} {ts : List Tensor} :
    decode bytes = some (ts, rest) ↔ ts.length < 256 ^ 8 ∧ bytes = encode ts ++ rest := by
  rw [decode_reads bytes ts rest]
  constructor
  · rintro ⟨file, hfile, rfl⟩
    rcases (encode_writes _ _).mp hfile with ⟨hcount, rfl⟩
    exact ⟨hcount, rfl⟩
  · rintro ⟨hcount, rfl⟩
    exact ⟨encode ts, (encode_writes _ _).mpr ⟨hcount, rfl⟩, rfl⟩

/-- What is written is read back, whatever follows it. -/
theorem decode_encode {ts : List Tensor} (h : ts.length < 256 ^ 8) (rest : List UInt8) :
    decode (encode ts ++ rest) = some (ts, rest) :=
  decode_eq_some_iff.mpr ⟨h, rfl⟩

/-- Bytes are refused when no file is at their beginning. -/
theorem decode_eq_none {bytes : List UInt8} :
    decode bytes = none ↔ ¬ ∃ ts file rest, IsFile ts file ∧ bytes = file ++ rest := by
  cases h : decode bytes with
  | none =>
    simp only [true_iff]
    rintro ⟨ts, file, rest, hfile, hbytes⟩
    have hread := (decode_reads _ _ _).mpr ⟨file, hfile, hbytes⟩
    rw [h] at hread
    cases hread
  | some result =>
    rcases result with ⟨ts, rest⟩
    rcases (decode_reads _ _ _).mp h with ⟨file, hfile, hbytes⟩
    simp only [reduceCtorEq, false_iff, not_not]
    exact ⟨ts, file, rest, hfile, hbytes⟩

end ParameterFile

end GraphAttention
