import GraphAttention.Module.File
import Mathlib.Tactic.Ring

/-!
# Layouts of Bytes

Which bytes stand for a value, said without reading or writing any. A layout is
a relation between values and bytes, and three of them are enough here: a number
has a fixed width and its least significant byte first, items of one layout may
follow each other, and a list is the number of its items before the items.

A reader is right for a layout when it succeeds exactly on the bytes that begin
with it, and then hands back the value and what is left. This one equivalence is
what makes readers compose. It says that a reader invents nothing and misses
nothing, and since a reader is a function it also says that bytes have no more
than one reading and that no value is a proper beginning of another.

A writer is right for a layout when what it writes is the only form that a value
has. Numbers have a form when they are small enough for their width.

## Main definitions

* `IsNumber`, `IsSequence`, `IsCounted`: Numbers, items in a row, lists.
* `Reads`, `Writes`: What it is to read and to write a layout.

## Theorems

* `Reads.unique`: What can be read has one reading.
* `Reads.cut_off`: What ends too early has none.
* `decodeNat_reads`, `decodeList_reads`: Numbers and lists are read.
* `encodeNat_writes`, `encodeList_writes`: Numbers and lists are written.
* `isCounted_map`: Items that are images of others.
-/

namespace GraphAttention

namespace ParameterFile

variable {α β : Type}

/-- Which bytes stand for a value. -/
abbrev Layout (α : Type) := α → List UInt8 → Prop

/-- The number that bytes stand for, the least significant first. -/
def value : List UInt8 → Nat
  | [] => 0
  | byte :: bytes => byte.toNat + 256 * value bytes

/-- A number in `width` bytes. -/
def IsNumber (width : Nat) : Layout Nat := fun n bytes => bytes.length = width ∧ value bytes = n

/-- Items one after another. -/
inductive IsSequence (item : Layout α) : Layout (List α)
  | nil : IsSequence item [] []
  | cons {x : α} {xs : List α} {front back : List UInt8} (head : item x front)
      (tail : IsSequence item xs back) : IsSequence item (x :: xs) (front ++ back)

/-- The number of items in eight bytes, and then the items. -/
def IsCounted (item : Layout α) : Layout (List α) := fun xs bytes =>
  ∃ count items, IsNumber 8 xs.length count ∧ IsSequence item xs items ∧ bytes = count ++ items

/-- A reader succeeds exactly on the bytes that begin with a layout, and takes
    these off. -/
def Reads (read : Reader α) (layout : Layout α) : Prop :=
  ∀ bytes x rest, read bytes = some (x, rest) ↔ ∃ front, layout x front ∧ bytes = front ++ rest

/-- A writer gives the one form of every value that has a form. -/
def Writes (write : α → List UInt8) (layout : Layout α) (ok : α → Prop) : Prop :=
  ∀ x bytes, layout x bytes ↔ ok x ∧ bytes = write x

theorem isSequence_map {f : α → β} {layout : Layout β} {xs : List α} {bytes : List UInt8} :
    IsSequence layout (xs.map f) bytes ↔ IsSequence (fun x => layout (f x)) xs bytes := by
  induction xs generalizing bytes with
  | nil =>
    constructor
    · intro h
      cases h
      exact .nil
    · intro h
      cases h
      exact .nil
  | cons x xs ih =>
    constructor
    · intro h
      cases h with
      | cons head tail => exact .cons head (ih.mp tail)
    · intro h
      cases h with
      | cons head tail => exact .cons head (ih.mpr tail)

theorem isCounted_map {f : α → β} {layout : Layout β} {xs : List α} {bytes : List UInt8} :
    IsCounted layout (xs.map f) bytes ↔ IsCounted (fun x => layout (f x)) xs bytes := by
  simp only [IsCounted, isSequence_map, List.length_map]

section Reading

variable {read : Reader α} {layout : Layout α}

/-- No value is a proper beginning of another. -/
theorem Reads.unique (h : Reads read layout) {x y : α} {front front' rest rest' : List UInt8}
    (hx : layout x front) (hy : layout y front') (hbytes : front ++ rest = front' ++ rest') :
    x = y ∧ front = front' := by
  -- Both values are what the reader says of the same bytes.
  have hread := (h _ x rest).mpr ⟨front, hx, rfl⟩
  have hread' := (h _ y rest').mpr ⟨front', hy, hbytes⟩
  rw [hread] at hread'
  obtain ⟨rfl, rfl⟩ : x = y ∧ rest = rest' := by simpa using hread'
  exact ⟨rfl, List.append_cancel_right hbytes⟩

/-- Bytes that end before a value does are not read as another value. -/
theorem Reads.cut_off (h : Reads read layout) {x : α} {front part : List UInt8}
    (hx : layout x front) (hpart : part <+: front) (hne : part ≠ front) : read part = none := by
  cases hread : read part with
  | none => rfl
  | some result =>
    rcases result with ⟨y, rest⟩
    rcases (h _ _ _).mp hread with ⟨front', hy, rfl⟩
    rcases hpart with ⟨more, rfl⟩
    -- What was read would begin both the value and the bytes that end before it does.
    have hbytes : (front' ++ rest ++ more) ++ [] = front' ++ (rest ++ more) := by simp
    have hsame := (h.unique hx hy hbytes).2
    have hnothing : rest = [] ∧ more = [] := by simpa using hsame
    exact absurd (by simp [hnothing]) hne

theorem value_lt (bytes : List UInt8) : value bytes < 256 ^ bytes.length := by
  induction bytes with
  | nil => simp [value]
  | cons byte bytes ih =>
    have hbyte := byte.toNat_lt
    rw [value, List.length_cons, Nat.pow_succ]
    omega

theorem IsNumber.lt {width n : Nat} {bytes : List UInt8} (h : IsNumber width n bytes) :
    n < 256 ^ width := by
  rw [← h.1, ← h.2]
  exact value_lt bytes

theorem decodeNat_reads (width : Nat) : Reads (decodeNat width) (IsNumber width) := by
  intro bytes
  induction width generalizing bytes with
  | zero =>
    intro x rest
    simp only [decodeNat, Option.some.injEq, Prod.mk.injEq]
    constructor
    · rintro ⟨rfl, rfl⟩
      exact ⟨[], ⟨rfl, rfl⟩, rfl⟩
    · rintro ⟨front, ⟨hlength, hvalue⟩, rfl⟩
      rcases List.eq_nil_of_length_eq_zero hlength with rfl
      exact ⟨hvalue, rfl⟩
  | succ width ih =>
    intro x rest
    cases bytes with
    | nil =>
      constructor
      · intro h
        cases h
      · rintro ⟨front, ⟨hlength, -⟩, hbytes⟩
        rcases List.append_eq_nil_iff.mp hbytes.symm with ⟨rfl, -⟩
        cases hlength
    | cons byte bytes =>
      simp only [decodeNat, Option.bind_eq_bind, Option.bind_eq_some_iff]
      constructor
      · rintro ⟨⟨n, rest'⟩, hread, hresult⟩
        obtain ⟨rfl, rfl⟩ : byte.toNat + 256 * n = x ∧ rest' = rest := by simpa using hresult
        rcases (ih bytes n rest').mp hread with ⟨front, ⟨hlength, hvalue⟩, rfl⟩
        exact ⟨byte :: front, ⟨by simp [hlength], by rw [value, hvalue]⟩, rfl⟩
      · rintro ⟨front, ⟨hlength, hvalue⟩, hbytes⟩
        -- The first byte read is the first byte of the number.
        cases front with
        | nil => cases hlength
        | cons byte' front =>
          rcases List.cons.inj hbytes with ⟨rfl, rfl⟩
          refine ⟨(value front, rest), (ih _ _ _).mpr ⟨front, ⟨?_, rfl⟩, rfl⟩, ?_⟩
          · simpa using hlength
          · rw [← hvalue]
            rfl

/-- Reading items onto those read before. -/
theorem decodeOnto_eq_some (h : Reads read layout) (count : Nat) (acc : List α)
    (bytes : List UInt8) (xs : List α) (rest : List UInt8) :
    decodeOnto read count acc bytes = some (xs, rest) ↔
      ∃ ys front, xs = acc.reverse ++ ys ∧ ys.length = count ∧ IsSequence layout ys front ∧
        bytes = front ++ rest := by
  induction count generalizing acc bytes with
  | zero =>
    simp only [decodeOnto, Option.some.injEq, Prod.mk.injEq]
    constructor
    · rintro ⟨rfl, rfl⟩
      exact ⟨[], [], by simp, rfl, .nil, rfl⟩
    · rintro ⟨ys, front, rfl, hlength, hseq, rfl⟩
      rcases List.eq_nil_of_length_eq_zero hlength with rfl
      cases hseq
      simp
  | succ count ih =>
    cases hitem : read bytes with
    | none =>
      simp only [decodeOnto, hitem, reduceCtorEq, false_iff]
      -- Where the next item cannot be read there is no sequence with one more item.
      rintro ⟨ys, front, -, hlength, hseq, hbytes⟩
      cases hseq with
      | nil => cases hlength
      | cons head tail =>
        have hread := (h _ _ _).mpr ⟨_, head, hbytes.trans (List.append_assoc _ _ _)⟩
        rw [hitem] at hread
        cases hread
    | some result =>
      rcases result with ⟨x, bytes'⟩
      simp only [decodeOnto, hitem]
      rw [ih]
      constructor
      · rintro ⟨ys, front, rfl, rfl, hseq, rfl⟩
        rcases (h _ _ _).mp hitem with ⟨first, hfirst, rfl⟩
        exact ⟨x :: ys, first ++ front, by simp, rfl, .cons hfirst hseq, by simp⟩
      · rintro ⟨ys, front, rfl, hlength, hseq, hbytes⟩
        cases hseq with
        | nil => cases hlength
        | cons head tail =>
          -- The item read is the first of the sequence.
          have hread := (h _ _ _).mpr ⟨_, head, hbytes.trans (List.append_assoc _ _ _)⟩
          rw [hitem, Option.some.injEq, Prod.mk.injEq] at hread
          rcases hread with ⟨rfl, rfl⟩
          exact ⟨_, _, by simp, by simpa using hlength, tail, rfl⟩

/-- A list is read by its items. -/
theorem decodeList_reads (h : Reads read layout) :
    Reads (decodeList read) (IsCounted layout) := by
  intro bytes xs rest
  simp only [decodeList, decodeMany, Option.bind_eq_bind, Option.bind_eq_some_iff]
  constructor
  · rintro ⟨⟨count, rest'⟩, hcount, hitems⟩
    rcases (decodeNat_reads 8 _ _ _).mp hcount with ⟨front, hfront, rfl⟩
    rcases (decodeOnto_eq_some h _ _ _ _ _).mp hitems with ⟨ys, items, hxs, rfl, hseq, rfl⟩
    obtain rfl : xs = ys := hxs
    exact ⟨front ++ items, ⟨front, items, hfront, hseq, rfl⟩, (List.append_assoc _ _ _).symm⟩
  · rintro ⟨front, ⟨count, items, hcount, hseq, rfl⟩, rfl⟩
    refine ⟨(xs.length, items ++ rest), ?_, ?_⟩
    · exact (decodeNat_reads 8 _ _ _).mpr ⟨count, hcount, List.append_assoc _ _ _⟩
    · exact (decodeOnto_eq_some h _ _ _ _ _).mpr ⟨xs, items, rfl, rfl, hseq, rfl⟩

end Reading

section Writing

variable {write : α → List UInt8} {layout : Layout α} {ok : α → Prop}

theorem value_encodeNat {width n : Nat} (h : n < 256 ^ width) :
    value (encodeNat width n) = n := by
  induction width generalizing n with
  | zero =>
    have hn : n = 0 := by simpa using h
    rw [hn]
    rfl
  | succ width ih =>
    -- The digits above the first belong to a number of one byte less.
    have hhigh : n / 256 < 256 ^ width := by
      rw [Nat.div_lt_iff_lt_mul (by decide)]
      rwa [← Nat.pow_succ]
    have hlow : (UInt8.ofNat (n % 256)).toNat = n % 256 := by simp
    rw [encodeNat, value, ih hhigh, hlow]
    exact Nat.mod_add_div n 256

theorem length_encodeNat (width n : Nat) : (encodeNat width n).length = width := by
  induction width generalizing n with
  | zero => rfl
  | succ width ih => rw [encodeNat, List.length_cons, ih]

/-- Bytes are determined by how many they are and what they stand for. -/
theorem value_injective {bytes bytes' : List UInt8} (hlength : bytes.length = bytes'.length)
    (hvalue : value bytes = value bytes') : bytes = bytes' := by
  induction bytes generalizing bytes' with
  | nil => rw [List.eq_nil_of_length_eq_zero hlength.symm]
  | cons byte bytes ih =>
    cases bytes' with
    | nil => cases hlength
    | cons byte' bytes' =>
      -- The first byte is the remainder by 256, the others are the quotient.
      have hbyte := byte.toNat_lt
      have hbyte' := byte'.toNat_lt
      simp only [value] at hvalue
      have hhead : byte = byte' := UInt8.toNat_inj.mp (by omega)
      have htail : bytes = bytes' := ih (by simpa using hlength) (by omega)
      rw [hhead, htail]

theorem encodeNat_writes (width : Nat) :
    Writes (encodeNat width) (IsNumber width) (· < 256 ^ width) := by
  intro n bytes
  constructor
  · intro h
    refine ⟨h.lt, value_injective ?_ ?_⟩
    · rw [length_encodeNat, h.1]
    · rw [value_encodeNat h.lt, h.2]
  · rintro ⟨hn, rfl⟩
    exact ⟨length_encodeNat width n, value_encodeNat hn⟩

theorem flatMap_writes (h : Writes write layout ok) :
    Writes (List.flatMap write) (IsSequence layout) (fun xs => ∀ x ∈ xs, ok x) := by
  intro xs bytes
  induction xs generalizing bytes with
  | nil =>
    constructor
    · intro hseq
      cases hseq
      exact ⟨by simp, rfl⟩
    · rintro ⟨-, rfl⟩
      exact .nil
  | cons x xs ih =>
    constructor
    · intro hseq
      cases hseq with
      | cons head tail =>
        rcases (h _ _).mp head with ⟨hx, rfl⟩
        rcases (ih _).mp tail with ⟨hxs, rfl⟩
        exact ⟨List.forall_mem_cons.mpr ⟨hx, hxs⟩, rfl⟩
    · rintro ⟨hall, rfl⟩
      rcases List.forall_mem_cons.mp hall with ⟨hx, hxs⟩
      rw [List.flatMap_cons]
      exact .cons ((h _ _).mpr ⟨hx, rfl⟩) ((ih _).mpr ⟨hxs, rfl⟩)

/-- A list is written by its items. -/
theorem encodeList_writes (h : Writes write layout ok) :
    Writes (encodeList write) (IsCounted layout)
      (fun xs => xs.length < 256 ^ 8 ∧ ∀ x ∈ xs, ok x) := by
  intro xs bytes
  constructor
  · rintro ⟨count, items, hcount, hitems, rfl⟩
    rcases (encodeNat_writes 8 _ _).mp hcount with ⟨hlength, rfl⟩
    rcases (flatMap_writes h _ _).mp hitems with ⟨hok, rfl⟩
    exact ⟨⟨hlength, hok⟩, rfl⟩
  · rintro ⟨⟨hlength, hok⟩, rfl⟩
    exact ⟨_, _, (encodeNat_writes 8 _ _).mpr ⟨hlength, rfl⟩,
      (flatMap_writes h _ _).mpr ⟨hok, rfl⟩, rfl⟩

end Writing

end ParameterFile

end GraphAttention
