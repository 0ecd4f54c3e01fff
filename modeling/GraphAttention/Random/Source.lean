/-!
# Sources of Random Words

Everything random is drawn from a source of 64-bit words, and a draw says how
many words it takes. What a source is made of is left open: a theorem about
drawing holds for every source, and a caller who wants the same draw again
passes the same source again.

Normal samples are asked for as they are. How they are made of words, and of how
many, is the business of the source, and nothing but the type of a sample is
known of it.

`SplitMix` is the source used where nothing else is asked for. Its state is a
counter that moves by a fixed odd step, and a word is the counter mixed by two
rounds of shift and multiply.

## Main definitions

* `drawEach`: The same thing drawn again and again.
* `WordSource`: What can be asked for words.
* `NormalSource`: What can be asked for normal samples as well.
* `WordSource.take`, `NormalSource.take`: The next words or samples of a source.
* `SplitMix`: A counter mixed into words.

## Theorems

* `drawEach_size`: There are as many of them as are asked for.
-/

namespace GraphAttention

variable {G α : Type}

/-- The next `n` of what a source hands out, in order, and the source after them. -/
def drawEach (next : G → α × G) (n : Nat) (g : G) : Array α × G :=
  n.fold (fun _ _ (drawn, g) =>
    let (x, g) := next g
    (drawn.push x, g)) (#[], g)

@[simp] theorem drawEach_size (next : G → α × G) (n : Nat) (g : G) :
    (drawEach next n g).1.size = n := by
  unfold drawEach
  induction n with
  | zero => rfl
  | succ n ih => rw [Nat.fold_succ, Array.size_push, ih]

/-- A source of 64-bit words. -/
class WordSource (G : Type) where
  /-- The next word and the source after it. -/
  next : G → UInt64 × G

/-- A source of 64-bit words and of samples of the standard normal distribution. -/
class NormalSource (G : Type) extends WordSource G where
  /-- The next sample and the source after it. -/
  nextNormal : G → Float × G

/-- The next `n` words, in order, and the source after them. -/
def WordSource.take [WordSource G] (n : Nat) (g : G) : Array UInt64 × G := drawEach next n g

/-- The next `n` normal samples, in order, and the source after them. -/
def NormalSource.take [NormalSource G] (n : Nat) (g : G) : Array Float × G :=
  drawEach nextNormal n g

/-- A counter that is mixed into words. -/
structure SplitMix where
  counter : UInt64
deriving DecidableEq

namespace SplitMix

/-- Two rounds of shift and multiply. -/
def mix (z : UInt64) : UInt64 :=
  let z := (z ^^^ (z >>> 30)) * 0xbf58476d1ce4e5b9
  let z := (z ^^^ (z >>> 27)) * 0x94d049bb133111eb
  z ^^^ (z >>> 31)

instance : WordSource SplitMix where
  next g :=
    let counter := g.counter + 0x9e3779b97f4a7c15
    (mix counter, ⟨counter⟩)

end SplitMix

end GraphAttention
