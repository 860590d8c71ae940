import SoftConfirm.Bytes

/-!
Keccak-256: the sponge over the 1600-bit permutation with a rate of 136 bytes and the padding of
the first submission (a one bit, zeros, a one bit), which differs from the later standard's.
-/

namespace SoftConfirm.Keccak

-- Five lanes that share a `y` coordinate.
structure Plane where
  x0 : UInt64
  x1 : UInt64
  x2 : UInt64
  x3 : UInt64
  x4 : UInt64
  deriving DecidableEq

-- The five planes of the permutation's state.
structure State where
  y0 : Plane
  y1 : Plane
  y2 : Plane
  y3 : Plane
  y4 : Plane
  deriving DecidableEq

def Plane.zero : Plane := ⟨0, 0, 0, 0, 0⟩

def State.zero : State := ⟨.zero, .zero, .zero, .zero, .zero⟩

-- Rotation towards the high bits. The amount is from 0 to 63.
@[inline] def rotate (word amount : UInt64) : UInt64 :=
  (word <<< amount) ||| (word >>> ((64 - amount) % 64))

@[inline] def Plane.xor (a b : Plane) : Plane :=
  ⟨a.x0 ^^^ b.x0, a.x1 ^^^ b.x1, a.x2 ^^^ b.x2, a.x3 ^^^ b.x3, a.x4 ^^^ b.x4⟩

-- What a column's parity plane adds to every plane.
@[inline] def Plane.spread (c : Plane) : Plane :=
  ⟨c.x4 ^^^ rotate c.x1 1, c.x0 ^^^ rotate c.x2 1, c.x1 ^^^ rotate c.x3 1,
    c.x2 ^^^ rotate c.x4 1, c.x3 ^^^ rotate c.x0 1⟩

-- The nonlinear step: each lane takes the next one's complement and the one after.
@[inline] def Plane.mix (b : Plane) : Plane :=
  ⟨b.x0 ^^^ (~~~b.x1 &&& b.x2), b.x1 ^^^ (~~~b.x2 &&& b.x3), b.x2 ^^^ (~~~b.x3 &&& b.x4),
    b.x3 ^^^ (~~~b.x4 &&& b.x0), b.x4 ^^^ (~~~b.x0 &&& b.x1)⟩

-- Adds to each column the parities of its two neighbours.
def State.theta (s : State) : State :=
  let d := ((((s.y0.xor s.y1).xor s.y2).xor s.y3).xor s.y4).spread
  ⟨s.y0.xor d, s.y1.xor d, s.y2.xor d, s.y3.xor d, s.y4.xor d⟩

-- Rotates every lane by its own amount and moves it to its new place.
def State.rhoPi (s : State) : State where
  y0 := ⟨s.y0.x0, rotate s.y1.x1 44, rotate s.y2.x2 43, rotate s.y3.x3 21, rotate s.y4.x4 14⟩
  y1 := ⟨rotate s.y0.x3 28, rotate s.y1.x4 20, rotate s.y2.x0 3, rotate s.y3.x1 45,
    rotate s.y4.x2 61⟩
  y2 := ⟨rotate s.y0.x1 1, rotate s.y1.x2 6, rotate s.y2.x3 25, rotate s.y3.x4 8,
    rotate s.y4.x0 18⟩
  y3 := ⟨rotate s.y0.x4 27, rotate s.y1.x0 36, rotate s.y2.x1 10, rotate s.y3.x2 15,
    rotate s.y4.x3 56⟩
  y4 := ⟨rotate s.y0.x2 62, rotate s.y1.x3 55, rotate s.y2.x4 39, rotate s.y3.x0 41,
    rotate s.y4.x1 2⟩

def State.chi (s : State) : State := ⟨s.y0.mix, s.y1.mix, s.y2.mix, s.y3.mix, s.y4.mix⟩

def State.iota (s : State) (constant : UInt64) : State :=
  { s with y0 := { s.y0 with x0 := s.y0.x0 ^^^ constant } }

def round (s : State) (constant : UInt64) : State := s.theta.rhoPi.chi.iota constant

def roundConstants : List UInt64 :=
  [0x0000000000000001, 0x0000000000008082, 0x800000000000808A, 0x8000000080008000,
    0x000000000000808B, 0x0000000080000001, 0x8000000080008081, 0x8000000000008009,
    0x000000000000008A, 0x0000000000000088, 0x0000000080008009, 0x000000008000000A,
    0x000000008000808B, 0x800000000000008B, 0x8000000000008089, 0x8000000000008003,
    0x8000000000008002, 0x8000000000000080, 0x000000000000800A, 0x800000008000000A,
    0x8000000080008081, 0x8000000000008080, 0x0000000080000001, 0x8000000080008008]

def permute (s : State) : State := roundConstants.foldl round s

-- The number of bytes taken in before each permutation.
def rate : Nat := 136

-- Fills a message up to a multiple of the rate.
def padding (length : Nat) : Bytes :=
  let room := rate - length % rate
  if room = 1 then [0x81] else 0x01 :: List.replicate (room - 2) 0 ++ [0x80]

-- Little-endian words of a byte sequence whose length is a multiple of eight.
def lanes : Bytes → List UInt64
  | b0 :: b1 :: b2 :: b3 :: b4 :: b5 :: b6 :: b7 :: rest =>
      (b0.toUInt64 ||| (b1.toUInt64 <<< 8) ||| (b2.toUInt64 <<< 16) ||| (b3.toUInt64 <<< 24) |||
        (b4.toUInt64 <<< 32) ||| (b5.toUInt64 <<< 40) ||| (b6.toUInt64 <<< 48) |||
        (b7.toUInt64 <<< 56)) :: lanes rest
  | _ => []

-- The block's seventeen lanes in the state's first places.
def blockState (block : List UInt64) : State :=
  let lane (i : Nat) : UInt64 := block.getD i 0
  ⟨⟨lane 0, lane 1, lane 2, lane 3, lane 4⟩, ⟨lane 5, lane 6, lane 7, lane 8, lane 9⟩,
    ⟨lane 10, lane 11, lane 12, lane 13, lane 14⟩, ⟨lane 15, lane 16, 0, 0, 0⟩, .zero⟩

def State.xor (a b : State) : State :=
  ⟨a.y0.xor b.y0, a.y1.xor b.y1, a.y2.xor b.y2, a.y3.xor b.y3, a.y4.xor b.y4⟩

def absorb : (blocks : Nat) → State → Bytes → State
  | 0, s, _ => s
  | blocks + 1, s, bytes =>
      absorb blocks (permute (s.xor (blockState (lanes (bytes.take rate))))) (bytes.drop rate)

-- The bytes of a word, the lowest first.
def laneBytes (word : UInt64) : Bytes :=
  [word.toUInt8, (word >>> 8).toUInt8, (word >>> 16).toUInt8, (word >>> 24).toUInt8,
    (word >>> 32).toUInt8, (word >>> 40).toUInt8, (word >>> 48).toUInt8, (word >>> 56).toUInt8]

def hash (message : Bytes) : Bytes :=
  let length := message.length
  let s := absorb (length / rate + 1) .zero (message ++ padding length)
  laneBytes s.y0.x0 ++ laneBytes s.y0.x1 ++ laneBytes s.y0.x2 ++ laneBytes s.y0.x3

@[simp] theorem length_hash (message : Bytes) : (hash message).length = 32 := rfl

end SoftConfirm.Keccak
