import Rtpkit.Draws
import Rtpkit.Errors
import Rtpkit.Framing

namespace Rtpkit

open Draw

namespace Fuzz

/-- `buf[pos] ^= 1 << bit` -/
def flipBit (buf : Bytes) (pos bit : Nat) : Bytes :=
  buf.modify pos (· ^^^ (1 <<< UInt8.ofNat bit))

variable {σ : Type} (rng : Source σ)

/-- The loop of `bit_flip`. -/
def flips : Nat → Bytes → Draw σ Bytes
  | 0, buf => pure buf
  | count + 1, buf => do
    let pos ← randrange rng 0 buf.length
    let bit ← randrange rng 0 8
    flips count (flipBit buf pos bit)

def bitFlip (data : Bytes) (count : Int) : Draw σ Bytes :=
  if data = [] then pure data else flips rng count.toNat data

def truncate (data : Bytes) : Draw σ Bytes :=
  if data = [] then pure data
  else do
    let n ← randrange rng 0 data.length
    pure (data.take n)

/-- `bytes(rng.randrange(256) for _ in range(length))` -/
def run : Nat → Draw σ Bytes
  | 0 => pure []
  | length + 1 => do
    let first ← randrange rng 0 256
    let rest ← run length
    pure (UInt8.ofNat first :: rest)

def spliceRandomBytes (data : Bytes) (maxInsert : Int) : Draw σ Bytes := do
  let pos ← randrange rng 0 (data.length + 1)
  let length ← randrange rng 1 (maxInsert + 1)
  let inserted ← run rng length
  pure (data.take pos ++ inserted ++ data.drop pos)

def randomBytes (length : Int) : Draw σ Bytes := run rng length.toNat

/-- `_MUTATORS`, each with its default arguments. -/
def mutators : List (Bytes → Draw σ Bytes) :=
  [fun data => bitFlip rng data 1, truncate rng, fun data => spliceRandomBytes rng data 8]

section Cases

variable (seeds : List Bytes) (maxRandomLength : Int)

/-- `seeds and rng.random() < 0.8`; the numerator is that of the double nearest to `0.8`. -/
def mutates : Draw σ Bool :=
  if seeds = [] then pure false
  else do
    let numerator ← fraction rng
    pure (numerator.val < 7205759403792794)

/-- One turn of the loop of `fuzz_cases`. -/
def fuzzCase : Draw σ Bytes := do
  let mutate ← mutates rng seeds
  if mutate then do
    let seed ← choice rng seeds
    let mutator ← choice rng (mutators rng)
    mutator seed
  else do
    let length ← randrange rng 0 (maxRandomLength + 1)
    randomBytes rng length

/-- The loop of `fuzz_cases`, which ends with the first exception. -/
def yieldCases : Nat → σ → Yielded Bytes DrawError
  | 0, _ => .returned
  | count + 1, s =>
    match fuzzCase rng seeds maxRandomLength s with
    | .ok (case, s) => (yieldCases count s).prepend [case]
    | .error e => .raised e

def fuzzCases (count : Int) (s : σ) : Yielded Bytes DrawError :=
  yieldCases rng seeds maxRandomLength count.toNat s

end Cases

end Fuzz

end Rtpkit
