import Conform.Text.CharSet

/-!
# UTF-8

The bytes of a character, and the sequences of byte ranges that make up a range of characters. A
sequence stands for all choices of one byte from each of its ranges, so a range of characters is
first cut where the number of bytes changes, and then so that only bytes after the first one that
varies run through all their values.
-/

namespace Conform.Text.Utf8

def encode (n : Nat) : List Nat :=
  if n < 0x80 then [n]
  else if n < 0x800 then [0xC0 + n / 64, 0x80 + n % 64]
  else if n < 0x10000 then [0xE0 + n / 4096, 0x80 + n / 64 % 64, 0x80 + n % 64]
  else [0xF0 + n / 262144, 0x80 + n / 4096 % 64, 0x80 + n / 64 % 64, 0x80 + n % 64]

def length (c : Char) : Nat := (encode c.toNat).length

/-- Leaves out the surrogates. -/
def cutSurrogates (r : Range) : List Range :=
  if r.1 < 0xE000 ∧ 0xD7FF < r.2 then [(r.1, 0xD7FF), (0xE000, r.2)] else [r]

/-- Cuts a range behind a number, if it goes on there. -/
def cutBehind (n : Nat) (r : Range) : List Range :=
  if r.1 ≤ n ∧ n < r.2 then [(r.1, n), (n + 1, r.2)] else [r]

/-- Cuts off the blocks of `m` numbers that a range has only a part of, if it reaches into more
than one block. -/
def cutBlocks (m : Nat) (r : Range) : List Range :=
  if r.1 / m = r.2 / m then [r]
  else
    let start := if r.1 % m = 0 then r.1 else (r.1 / m + 1) * m
    let stop := if r.2 % m = m - 1 then r.2 + 1 else r.2 / m * m
    (if r.1 < start then [(r.1, start - 1)] else [])
      ++ (if start < stop then [(start, stop - 1)] else [])
      ++ (if stop ≤ r.2 then [(stop, r.2)] else [])

def cutAll (r : Range) : List Range :=
  if r.2 < 0x80 then [r]
  else (((cutBlocks 64 r).flatMap (cutBlocks 4096)).flatMap (cutBlocks 262144))

/-- The sequences of a range, in order. -/
def sequences (r : Range) : List (List Range) :=
  let cut := (((cutSurrogates r).flatMap (cutBehind 0x7F)).flatMap (cutBehind 0x7FF)).flatMap
    (cutBehind 0xFFFF)
  (cut.flatMap cutAll).map fun r => (encode r.1).zip (encode r.2)

end Conform.Text.Utf8
