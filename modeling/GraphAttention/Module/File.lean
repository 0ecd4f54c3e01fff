import GraphAttention.Tensor.Basic

/-!
# Parameter Files

A parameter file is a list of tensors as bytes. Every number has a fixed width
and its least significant byte first, and every list is preceded by its length,
so a reader always knows where it is: no file is the beginning of another, and
what follows a file is not looked at.

A tensor is written as a code for its kind, a version, the number of axes and
their lengths, and the number of elements and the elements in row-major order,
each as the word it is stored as. The elements are counted although the axes
already say how many there are; a file in which the two disagree is refused.

## Main definitions

* `DType.word`, `DType.ofWord`: Elements as numbers of a fixed width.
* `ParameterFile.encode`: The bytes of a list of tensors.
* `ParameterFile.decode`: The tensors that bytes begin with, and the bytes
  after them.
-/

namespace GraphAttention

namespace DType

/-- The code of a kind. -/
def code : DType → Nat
  | float32 => 0
  | float64 => 1
  | int64 => 2
  | uint8 => 3

/-- The kind with a code. -/
def ofCode? : Nat → Option DType
  | 0 => some float32
  | 1 => some float64
  | 2 => some int64
  | 3 => some uint8
  | _ => none

/-- An element as the number that its bytes stand for. -/
def word : (d : DType) → d.Elem → Nat
  | float32, x => x.bits.toNat
  | float64, x => x.bits.toNat
  | int64, n => n.toUInt64.toNat
  | uint8, n => n.toNat

/-- The element whose bytes stand for a number. -/
def ofWord : (d : DType) → Nat → d.Elem
  | float32, w => ⟨UInt32.ofNat w⟩
  | float64, w => ⟨UInt64.ofNat w⟩
  | int64, w => (UInt64.ofNat w).toInt64
  | uint8, w => UInt8.ofNat w

end DType

namespace ParameterFile

/-- Something read off the front of a list of bytes, and the bytes after it. -/
abbrev Reader (α : Type) := List UInt8 → Option (α × List UInt8)

/-- A number in `width` bytes, the least significant first. -/
def encodeNat : (width : Nat) → Nat → List UInt8
  | 0, _ => []
  | width + 1, n => UInt8.ofNat (n % 256) :: encodeNat width (n / 256)

/-- Reads a number of `width` bytes. -/
def decodeNat : (width : Nat) → Reader Nat
  | 0, bytes => some (0, bytes)
  | _ + 1, [] => none
  | width + 1, byte :: bytes => do
    let (n, rest) ← decodeNat width bytes
    return (byte.toNat + 256 * n, rest)

/-- Reads a number of items after those in `acc`, which are in reverse. -/
def decodeOnto {α : Type} (item : Reader α) : Nat → List α → Reader (List α)
  | 0, acc, bytes => some (acc.reverse, bytes)
  | count + 1, acc, bytes =>
    match item bytes with
    | none => none
    | some (x, rest) => decodeOnto item count (x :: acc) rest

/-- Reads a number of items, one after another. -/
def decodeMany {α : Type} (item : Reader α) (count : Nat) : Reader (List α) :=
  decodeOnto item count []

/-- The bytes of a list: its length, then its items. -/
def encodeList {α : Type} (item : α → List UInt8) (xs : List α) : List UInt8 :=
  encodeNat 8 xs.length ++ xs.flatMap item

/-- Reads a list: its length, then as many items. -/
def decodeList {α : Type} (item : Reader α) : Reader (List α) := fun bytes => do
  let (count, rest) ← decodeNat 8 bytes
  decodeMany item count rest

/-- The version of the layout of a tensor. -/
def version : Nat := 1

/-- The bytes of a tensor. -/
def encodeTensor (t : Tensor) : List UInt8 :=
  encodeNat 4 t.dtype.code ++ encodeNat 1 version ++ encodeList (encodeNat 8) t.shape
    ++ encodeList (fun x => encodeNat t.dtype.width (t.dtype.word x)) t.array.toList

/-- Reads a tensor. -/
def decodeTensor : Reader Tensor := fun bytes => do
  let (code, bytes) ← decodeNat 4 bytes
  let d ← DType.ofCode? code
  let (found, bytes) ← decodeNat 1 bytes
  if found ≠ version then none
  let (s, bytes) ← decodeList (decodeNat 8) bytes
  let (words, bytes) ← decodeList (decodeNat d.width) bytes
  let t ← (Tensor.ofElements d (words.map d.ofWord).toArray s).toOption
  return (t, bytes)

/-- The bytes of a list of tensors. -/
def encode (ts : List Tensor) : List UInt8 := encodeList encodeTensor ts

/-- Reads a list of tensors. -/
def decode : Reader (List Tensor) := decodeList decodeTensor

end ParameterFile

end GraphAttention
