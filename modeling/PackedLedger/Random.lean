import PackedLedger.Attempt
import PackedLedger.Number.Digits

namespace PackedLedger

/-!
# Reproducible draws

## A stream of words

Draws come from the ChaCha stream cipher with eight rounds, keyed by a seed.
Block `n` of a key is sixteen 32-bit words, and the words of all blocks follow
one another.  `WordStream` walks along them and keeps the block it is in; its
proof field says that the kept block is the right one.
-/

namespace Random

/-- A cipher state or an output block. -/
abbrev Block := Vector UInt32 16

/-- A cipher key. -/
abbrev Key := Vector UInt32 8

/-- Rotate a word to the left by less than its width. -/
def rotateLeft (word amount : UInt32) : UInt32 :=
  (word <<< amount) ||| (word >>> (32 - amount))

/-- Mix four words of a state. -/
def quarterRound (state : Block) (first second third fourth : Fin 16) : Block :=
  let a := state[first] + state[second]
  let d := rotateLeft (state[fourth] ^^^ a) 16
  let c := state[third] + d
  let b := rotateLeft (state[second] ^^^ c) 12
  let a := a + b
  let d := rotateLeft (d ^^^ a) 8
  let c := c + d
  let b := rotateLeft (b ^^^ c) 7
  (((state.set first a).set second b).set third c).set fourth d

/-- One round over the columns and one over the diagonals. -/
def doubleRound (state : Block) : Block :=
  let state := quarterRound state 0 4 8 12
  let state := quarterRound state 1 5 9 13
  let state := quarterRound state 2 6 10 14
  let state := quarterRound state 3 7 11 15
  let state := quarterRound state 0 5 10 15
  let state := quarterRound state 1 6 11 12
  let state := quarterRound state 2 7 8 13
  quarterRound state 3 4 9 14

/-- The state before the rounds: constants, key, block counter, stream zero. -/
def initialState (key : Key) (counter : Nat) : Block :=
  #v[0x61707865, 0x3320646e, 0x79622d32, 0x6b206574,
    key[0], key[1], key[2], key[3], key[4], key[5], key[6], key[7],
    UInt32.ofNat counter, UInt32.ofNat (counter / 4294967296), 0, 0]

/-- Output block `counter` of a key, after eight rounds. -/
def block (key : Key) (counter : Nat) : Block :=
  let start := initialState key counter
  let mixed := doubleRound (doubleRound (doubleRound (doubleRound start)))
  Vector.zipWith (· + ·) start mixed

/-- The state of the congruential generator that expands a seed. -/
def nextSeedState (state : UInt64) : UInt64 :=
  state * 6364136223846793005 + 11634580027462260723

/-- The key word of a state: its high bits, rotated by the highest five. -/
def keyWord (state : UInt64) : UInt32 :=
  let mixed := (((state >>> 18) ^^^ state) >>> 27).toUInt32
  let amount := (state >>> 59).toUInt32
  (mixed >>> amount) ||| (mixed <<< ((32 - amount) % 32))

/-- The key of a seed: the words of the eight states after it. -/
def Key.ofSeed (seed : Nat) : Key :=
  let first := nextSeedState (UInt64.ofNat seed)
  let second := nextSeedState first
  let third := nextSeedState second
  let fourth := nextSeedState third
  let fifth := nextSeedState fourth
  let sixth := nextSeedState fifth
  let seventh := nextSeedState sixth
  let eighth := nextSeedState seventh
  #v[keyWord first, keyWord second, keyWord third, keyWord fourth,
    keyWord fifth, keyWord sixth, keyWord seventh, keyWord eighth]

/-- A place in the stream of a key, with the block it lies in. -/
structure WordStream where
  key : Key
  counter : Nat
  offset : Fin 16
  current : Block
  current_eq : current = block key counter

namespace WordStream

/-- The place in front of the first word. -/
def start (key : Key) : WordStream :=
  ⟨key, 0, 0, block key 0, rfl⟩

def ofSeed (seed : Nat) : WordStream :=
  start (Key.ofSeed seed)

/-- Take the next word. -/
def next (stream : WordStream) : UInt32 × WordStream :=
  let word := stream.current[stream.offset]
  if within : stream.offset.val + 1 < 16 then
    (word, { stream with offset := ⟨stream.offset.val + 1, within⟩ })
  else
    let counter := stream.counter + 1
    (word, ⟨stream.key, counter, 0, block stream.key counter, rfl⟩)

end WordStream

/-!
## Uniform draws

Both draws take bits off the word stream and reject what would make a value
more likely than another.  More than half of all draws pass, so a bound on the
number of attempts is never met in practice; after the last one the lowest
value of the range stands in, which keeps every draw inside its range.
-/

variable {Reason : Type}

/-- The largest number of times one draw is repeated. -/
def attempts : Nat := 256

/-- Take a value of 64 bits, low word first. -/
def WordStream.nextDouble (stream : WordStream) : Nat × WordStream :=
  let (low, stream) := stream.next
  let (high, stream) := stream.next
  (low.toNat + powerOfTwo 32 * high.toNat, stream)

/-- Take `bits` bits, whole words first and low ones first.  A last part of a
word is taken from its top. -/
def WordStream.nextBits (stream : WordStream) (bits : Nat) : Nat × WordStream :=
  if bits = 0 then (0, stream)
  else
    let (word, stream) := stream.next
    if bits < 32 then (word.toNat >>> (32 - bits), stream)
    else
      let (rest, stream) := stream.nextBits (bits - 32)
      (word.toNat + powerOfTwo 32 * rest, stream)
termination_by bits

/-- Repeat a draw of 64 bits until the low half of its product with `span` is
in the zone, and take the high half. -/
def multiplyHigh (span zone : Nat) : Nat -> WordStream -> Nat × WordStream
  | 0, stream => (0, stream)
  | left + 1, stream =>
    let (word, stream) := stream.nextDouble
    let product := word * span
    if product % powerOfTwo 64 ≤ zone then (product / powerOfTwo 64, stream)
    else multiplyHigh span zone left stream

/-- Draw a number from `low` to `high`, both included.  The zone is the largest
shift of the range's size that fits in 64 bits, less one. -/
def drawBetween (low high : Nat) (stream : WordStream) : Attempt Reason (Nat × WordStream) :=
  if low ≤ high then
    let span := high - low + 1
    let zone := span * powerOfTwo (64 - bitLength span) - 1
    let (offset, stream) := multiplyHigh span zone attempts stream
    .ok (low + offset, stream)
  else .breakDown .emptyRange

/-- Repeat a draw of the bits of `bound` until it is below. -/
def rejectAbove (bound : Nat) : Nat -> WordStream -> Nat × WordStream
  | 0, stream => (0, stream)
  | left + 1, stream =>
    let (value, stream) := stream.nextBits (bitLength bound)
    if value < bound then (value, stream) else rejectAbove bound left stream

/-- Draw a number of any size from `low` up to but not including `high`. -/
def drawBelow (low high : Nat) (stream : WordStream) : Attempt Reason (Nat × WordStream) :=
  if low < high then
    let (offset, stream) := rejectAbove (high - low) attempts stream
    .ok (low + offset, stream)
  else .breakDown .emptyRange

end Random

end PackedLedger
