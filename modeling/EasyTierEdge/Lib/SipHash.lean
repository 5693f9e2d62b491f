import EasyTierEdge.Lib.FixedWidth

/-!
# SipHash-1-3

The hash of a stream of bytes that a hash map uses unless told otherwise, with the keys `0`:
one round for every word of eight bytes, and three to finish.
-/

namespace SipHash

open FixedWidth

/-- The four words of the state. -/
structure State where
  v0 : UInt64
  v1 : UInt64
  v2 : UInt64
  v3 : UInt64
  deriving DecidableEq

namespace State

def init : State :=
  ⟨0x736f6d6570736575, 0x646f72616e646f6d, 0x6c7967656e657261, 0x7465646279746573⟩

/-- A word with its bits moved up by `k`, and those that leave it moved in below. -/
def rotl (x k : UInt64) : UInt64 := (x <<< k) ||| (x >>> (64 - k))

def round (s : State) : State :=
  let v0 := s.v0 + s.v1
  let v2 := s.v2 + s.v3
  let v1 := rotl s.v1 13 ^^^ v0
  let v0 := rotl v0 32
  let v3 := rotl s.v3 16 ^^^ v2
  let v0 := v0 + v3
  let v3 := rotl v3 21 ^^^ v0
  let v2 := v2 + v1
  let v1 := rotl v1 17 ^^^ v2
  ⟨v0, v1, rotl v2 32, v3⟩

/-- One word taken in. -/
def absorb (s : State) (m : UInt64) : State :=
  let s := ({ s with v3 := s.v3 ^^^ m } : State).round
  { s with v0 := s.v0 ^^^ m }

/-- The value after the last word. -/
def finish (s : State) : UInt64 :=
  let s := ({ s with v2 := s.v2 ^^^ 0xff } : State).round.round.round
  s.v0 ^^^ s.v1 ^^^ s.v2 ^^^ s.v3

end State

/-- The words of a stream, least significant byte first. The last one has what is left, and the
    length of the stream in its highest byte. -/
def words (bytes : List UInt8) : List UInt64 :=
  (List.range (bytes.length / 8 + 1)).map fun i =>
    let word := UInt64.ofNat (ofLeBytes ((bytes.drop (8 * i)).take 8))
    if i = bytes.length / 8 then word ||| (UInt64.ofNat (bytes.length % 256) <<< 56) else word

/-- The hash of a stream. -/
def hash (bytes : List UInt8) : UInt64 := ((words bytes).foldl State.absorb State.init).finish

-- The known value for no bytes at all.
example : hash [] = 0xd1fba762150c532c := by decide +kernel

end SipHash
