import GraphAttention.Layer.Linear
import GraphAttention.Proofs.Loading

/-!
# Files Have One Reading

A parameter file says where it ends. Its reader goes by the lengths that are written in
it, so bytes that follow a file are left alone, and bytes that stop before its end are no
file at all, wherever they stop: in the number of tensors, in an axis length or within an
element. That no part of a file is a file of other tensors does not have to be looked for
at each of these places. It follows from the one equivalence that a reader is right.

Nor is there a second way to write the same tensors. All numbers have a fixed width, and
the number of elements is redundant but checked, so the bytes of a file can be had back
from what was read.

The number of tensors is written in eight bytes, which is the one bound on what can be
written.

## Theorems

* `decode_cut_off`, `load_cut_off`: A part of a file is refused.
* `file_unambiguous`: Files are read back, refused in part, and written in one way.
-/

namespace GraphAttention

namespace ParameterFile

/-- A file that was cut off is not read. -/
theorem decode_cut_off {ts : List Tensor} (h : ts.length < 256 ^ 8) {part : List UInt8}
    (hpart : part <+: encode ts) (hne : part ≠ encode ts) : decode part = none :=
  decode_reads.cut_off ((encode_writes ts _).mpr ⟨h, rfl⟩) hpart hne

/-- No module loads a file that was cut off, and none is changed by it. -/
theorem load_cut_off {M : Type} [Module M] (m : M) {ts : List Tensor} (h : ts.length < 256 ^ 8)
    {part : List UInt8} (hpart : part <+: encode ts) (hne : part ≠ encode ts) :
    Module.load part m = (.error .malformedFile, m) :=
  Module.load_malformed (decode_cut_off h hpart hne)

/-- Tensors of any kinds and shapes, as many as can be counted in eight bytes, are read
    back from what is written for them, whatever follows it, each element as the word that
    it is. What is cut off of that at any place is not read, and every module that is
    given it is left as it was. Bytes that are read as some tensors begin with what is
    written for these tensors, and what is left of them comes right after it. -/
theorem file_unambiguous :
    (∀ ts : List Tensor, ts.length < 256 ^ 8 →
      (∀ rest, decode (encode ts ++ rest) = some (ts, rest)) ∧
      ∀ part, part <+: encode ts → part ≠ encode ts → decode part = none ∧
        ∀ (M : Type) [Module M] (m : M), Module.load part m = (.error .malformedFile, m)) ∧
    ∀ bytes ts rest, decode bytes = some (ts, rest) →
      ts.length < 256 ^ 8 ∧ bytes = encode ts ++ rest := by
  constructor
  · intro ts hcount
    refine ⟨decode_encode hcount, fun part hpart hne => ⟨decode_cut_off hcount hpart hne, ?_⟩⟩
    intro M _ m
    exact load_cut_off m hcount hpart hne
  · intro bytes ts rest hread
    exact decode_eq_some_iff.mp hread

/-- A number that is not one, with its payload, and a matrix without elements. -/
def payloadAndEmpty : List Tensor :=
  [⟨.float32, .fill [] ⟨0x7f800001⟩, by decide⟩, ⟨.int64, .fill [0, 3] 0, by decide⟩]

/-- They are read back with a byte after them. Without their last byte they are not read, and
    a layer is not changed. Forty bytes are read as a list of one byte and a rest, and are
    what is written for this list. -/
theorem file_unambiguous_payloadAndEmpty :
    decode (encode payloadAndEmpty ++ [9]) = some (payloadAndEmpty, [9]) ∧
      decode (encode payloadAndEmpty).dropLast = none ∧
      (∃ m : Linear, m.weight.data = ⟨.float32, .fill [1, 1] 1, by decide⟩ ∧
        Module.load (encode payloadAndEmpty).dropLast m = (.error .malformedFile, m)) ∧
      [1, 0, 0, 0, 0, 0, 0, 0, 3, 0, 0, 0, 1, 1, 0, 0, 0, 0, 0, 0, 0, 1, 0, 0, 0, 0, 0, 0, 0,
          1, 0, 0, 0, 0, 0, 0, 0, 200, 7, 8]
        = encode [⟨.uint8, .fill [1] 200, by decide⟩] ++ [7, 8] := by
  have hcount : payloadAndEmpty.length < 256 ^ 8 := by decide
  have hpart := List.dropLast_prefix (encode payloadAndEmpty)
  have hne : (encode payloadAndEmpty).dropLast ≠ encode payloadAndEmpty := by decide
  rcases file_unambiguous with ⟨hwritten, hcanonical⟩
  rcases hwritten payloadAndEmpty hcount with ⟨hread, hcut⟩
  rcases hcut _ hpart hne with ⟨hnone, hload⟩
  let m : Linear := ⟨1, 1, .trainable ⟨.float32, .fill [1, 1] 1, by decide⟩, none⟩
  exact ⟨hread [9], hnone, ⟨m, rfl, hload Linear m⟩, (hcanonical _ _ _ rfl).2⟩

end ParameterFile

end GraphAttention
