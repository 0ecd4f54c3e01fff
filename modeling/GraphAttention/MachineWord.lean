/-!
# Machine Words

Sizes, counts and numbers of nodes are held in machine words. A sum or a product
that is too large for a word loses what does not fit, and what is left of it is
its remainder. The remainder may be taken at each step or once at the end, so a
result that fits is right whatever happened on the way.

## Main definitions

* `wordCount`: How many numbers a word can hold.
* `wrap`: What is left of a number in a word.

## Theorems

* `wrap_lt`, `wrap_of_lt`: A word holds what is left, and small numbers whole.
* `wrap_add_wrap`, `wrap_wrap_mul`: Wrapping on the way makes no difference.
-/

namespace GraphAttention

/-- How many numbers a machine word can hold. -/
def wordCount : Nat := 0x10000000000000000

/-- What is left of a number in a machine word. -/
def wrap (n : Nat) : Nat := n % wordCount

theorem wrap_lt (n : Nat) : wrap n < wordCount := Nat.mod_lt n (by decide)

/-- A number that fits into a word is kept whole. -/
theorem wrap_of_lt {n : Nat} (h : n < wordCount) : wrap n = n := Nat.mod_eq_of_lt h

@[simp] theorem wrap_add_wrap (m n : Nat) : wrap (m + wrap n) = wrap (m + n) :=
  Nat.add_mod_mod m n wordCount

@[simp] theorem wrap_wrap_add (m n : Nat) : wrap (wrap m + n) = wrap (m + n) :=
  Nat.mod_add_mod m wordCount n

@[simp] theorem wrap_wrap_mul (m n : Nat) : wrap (wrap m * n) = wrap (m * n) :=
  Nat.mod_mul_mod m n wordCount

end GraphAttention
