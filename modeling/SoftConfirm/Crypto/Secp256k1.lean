/-!
The curve `y² = x³ + 7` over the field of `prime` elements, and its group of `order` points.
Field elements are numbers below the prime; sums of points are computed in Jacobian coordinates,
where `(x, y, z)` stands for the point `(x / z², y / z³)` and `z = 0` for the neutral element.
-/

namespace SoftConfirm.Secp256k1

def prime : Nat := 0xFFFFFFFFFFFFFFFFFFFFFFFFFFFFFFFFFFFFFFFFFFFFFFFFFFFFFFFEFFFFFC2F

def order : Nat := 0xFFFFFFFFFFFFFFFFFFFFFFFFFFFFFFFEBAAEDCE6AF48A03BBFD25E8CD0364141

-- `base ^ exponent` modulo `modulus`, with as many squarings as the exponent has bits.
def powMod (modulus base exponent : Nat) : Nat :=
  (List.range (Nat.log2 exponent + 1)).foldr
    (fun i power =>
      let square := power * power % modulus
      if exponent.testBit i then square * base % modulus else square) (1 % modulus)

-- The inverse modulo a prime of a number that it does not divide.
def inverseMod (modulus n : Nat) : Nat := powMod modulus n (modulus - 2)

-- A point in Jacobian coordinates.
structure Jacobian where
  x : Nat
  y : Nat
  z : Nat
  deriving DecidableEq, Repr

-- A point other than the neutral element.
structure Point where
  x : Nat
  y : Nat
  deriving DecidableEq, Repr

def generator : Point :=
  ⟨0x79BE667EF9DCBBAC55A06295CE870B07029BFCDB2DCE28D959F2815B16F81798,
    0x483ADA7726A3C4655DA4FBFC0E1108A8FD17B448A68554199C47D08FFB10D4B8⟩

namespace Jacobian

def neutral : Jacobian := ⟨1, 1, 0⟩

def ofPoint (p : Point) : Jacobian := ⟨p.x, p.y, 1⟩

@[inline] def minus (a b : Nat) : Nat := (a + prime - b) % prime

def double (p : Jacobian) : Jacobian :=
  if p.z = 0 ∨ p.y = 0 then neutral
  else
    let yy := p.y * p.y % prime
    let s := 4 * p.x * yy % prime
    let m := 3 * p.x * p.x % prime
    let x := minus (m * m % prime) (2 * s % prime)
    let y := minus (m * minus s x % prime) (8 * yy * yy % prime)
    ⟨x, y, 2 * p.y * p.z % prime⟩

def add (p q : Jacobian) : Jacobian :=
  if p.z = 0 then q
  else if q.z = 0 then p
  else
    let pz := p.z * p.z % prime
    let qz := q.z * q.z % prime
    let u1 := p.x * qz % prime
    let u2 := q.x * pz % prime
    let s1 := p.y * qz % prime * q.z % prime
    let s2 := q.y * pz % prime * p.z % prime
    if u1 = u2 then
      if s1 = s2 then double p else neutral
    else
      let h := minus u2 u1
      let r := minus s2 s1
      let hh := h * h % prime
      let hhh := h * hh % prime
      let v := u1 * hh % prime
      let x := minus (minus (r * r % prime) hhh) (2 * v % prime)
      let y := minus (r * minus v x % prime) (s1 * hhh % prime)
      ⟨x, y, p.z * q.z % prime * h % prime⟩

-- The `scalar`-fold sum of a point, by doubling and adding from the highest bit.
def multiply (scalar : Nat) (p : Jacobian) : Jacobian :=
  (List.range (Nat.log2 scalar + 1)).foldr
    (fun i sum =>
      let twice := double sum
      if scalar.testBit i then add twice p else twice) neutral

-- The point that these coordinates stand for, unless it is the neutral element.
def toPoint? (p : Jacobian) : Option Point :=
  if p.z = 0 then none
  else
    let inverse := inverseMod prime p.z
    let square := inverse * inverse % prime
    some ⟨p.x * square % prime, p.y * square % prime * inverse % prime⟩

end Jacobian

-- The point with this first coordinate whose second is odd or even as asked, if there is one.
def liftX (x : Nat) (odd : Bool) : Option Point :=
  let rhs := (x * x % prime * x + 7) % prime
  -- The prime is 3 modulo 4, so this power is a square root of every square.
  let root := powMod prime rhs ((prime + 1) / 4)
  if root * root % prime = rhs then
    some ⟨x, if (root % 2 == 1) == odd then root else (prime - root) % prime⟩
  else none

end SoftConfirm.Secp256k1
