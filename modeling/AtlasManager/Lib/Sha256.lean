import Mathlib.Data.BitVec
import Mathlib.Data.List.Basic

/-!
# AtlasManager.Lib.Sha256

The digest SHA-256 of a list of bytes, in hexadecimal digits.

* `pad` -- a message is filled up to whole blocks of 64 bytes, with its length in bits at the end;
* `schedule`, `compress` -- a block is spread over 64 words, and worked into the state in 64 rounds;
* `hexDigest` -- the digest, written in digits; `length_hexDigest`, `digit_of_mem_hexDigest` say how
  it looks.
-/

namespace AtlasManager.Lib.Sha256

abbrev Word := BitVec 32

/-! ## Blocks -/

/-- A byte of a number, counted from the low end. -/
def byteOf (n i : Nat) : UInt8 := UInt8.ofNat (n / 256 ^ i)

/-- The message, a single bit, zeros, and the number of bits in eight bytes. -/
def pad (message : List UInt8) : List UInt8 :=
  message ++ 0x80 :: List.replicate ((119 - message.length % 64) % 64) 0 ++
    [7, 6, 5, 4, 3, 2, 1, 0].map (byteOf (8 * message.length))

/-- Four bytes make a word, the high one first. -/
def words : List UInt8 → List Word
  | a :: b :: c :: d :: rest =>
    .ofNat 32 (((a.toNat * 256 + b.toNat) * 256 + c.toNat) * 256 + d.toNat) :: words rest
  | _ => []

/-- So many blocks of sixteen words. -/
def blocks : Nat → List Word → List (List Word)
  | 0, _ => []
  | n + 1, ws => ws.take 16 :: blocks n (ws.drop 16)

/-! ## Rounds -/

/-- The fractional parts of the cube roots of the first 64 primes. -/
def roundConstants : List Word := [
  0x428a2f98, 0x71374491, 0xb5c0fbcf, 0xe9b5dba5, 0x3956c25b, 0x59f111f1, 0x923f82a4, 0xab1c5ed5,
  0xd807aa98, 0x12835b01, 0x243185be, 0x550c7dc3, 0x72be5d74, 0x80deb1fe, 0x9bdc06a7, 0xc19bf174,
  0xe49b69c1, 0xefbe4786, 0x0fc19dc6, 0x240ca1cc, 0x2de92c6f, 0x4a7484aa, 0x5cb0a9dc, 0x76f988da,
  0x983e5152, 0xa831c66d, 0xb00327c8, 0xbf597fc7, 0xc6e00bf3, 0xd5a79147, 0x06ca6351, 0x14292967,
  0x27b70a85, 0x2e1b2138, 0x4d2c6dfc, 0x53380d13, 0x650a7354, 0x766a0abb, 0x81c2c92e, 0x92722c85,
  0xa2bfe8a1, 0xa81a664b, 0xc24b8b70, 0xc76c51a3, 0xd192e819, 0xd6990624, 0xf40e3585, 0x106aa070,
  0x19a4c116, 0x1e376c08, 0x2748774c, 0x34b0bcb5, 0x391c0cb3, 0x4ed8aa4a, 0x5b9cca4f, 0x682e6ff3,
  0x748f82ee, 0x78a5636f, 0x84c87814, 0x8cc70208, 0x90befffa, 0xa4506ceb, 0xbef9a3f7, 0xc67178f2]

/-- The eight words that are worked on. -/
structure State where
  a : Word
  b : Word
  c : Word
  d : Word
  e : Word
  f : Word
  g : Word
  h : Word

/-- The fractional parts of the square roots of the first eight primes. -/
def State.initial : State :=
  ⟨0x6a09e667, 0xbb67ae85, 0x3c6ef372, 0xa54ff53a, 0x510e527f, 0x9b05688c, 0x1f83d9ab, 0x5be0cd19⟩

def State.add (s t : State) : State :=
  ⟨s.a + t.a, s.b + t.b, s.c + t.c, s.d + t.d, s.e + t.e, s.f + t.f, s.g + t.g, s.h + t.h⟩

def State.words (s : State) : List Word := [s.a, s.b, s.c, s.d, s.e, s.f, s.g, s.h]

/-- A further word of a schedule, whose words so far stand the latest first. -/
def nextWord (latest : List Word) : Word :=
  let old := latest.getD 14 0
  let new := latest.getD 1 0
  let sigma0 := old.rotateRight 7 ^^^ old.rotateRight 18 ^^^ (old >>> 3)
  let sigma1 := new.rotateRight 17 ^^^ new.rotateRight 19 ^^^ (new >>> 10)
  latest.getD 15 0 + sigma0 + latest.getD 6 0 + sigma1

/-- So many further words. -/
def extend : Nat → List Word → List Word
  | 0, latest => latest
  | n + 1, latest => extend n (nextWord latest :: latest)

/-- The sixteen words of a block and 48 that are made of them. -/
def schedule (block : List Word) : List Word := (extend 48 block.reverse).reverse

def round (s : State) (constant word : Word) : State :=
  let sum1 := s.e.rotateRight 6 ^^^ s.e.rotateRight 11 ^^^ s.e.rotateRight 25
  let choice := (s.e &&& s.f) ^^^ (~~~s.e &&& s.g)
  let t1 := s.h + sum1 + choice + constant + word
  let sum0 := s.a.rotateRight 2 ^^^ s.a.rotateRight 13 ^^^ s.a.rotateRight 22
  let majority := (s.a &&& s.b) ^^^ (s.a &&& s.c) ^^^ (s.b &&& s.c)
  ⟨t1 + (sum0 + majority), s.a, s.b, s.c, s.d + t1, s.e, s.f, s.g⟩

/-- A block is worked into the state. -/
def compress (s : State) (block : List Word) : State :=
  s.add ((roundConstants.zip (schedule block)).foldl (fun s p => round s p.1 p.2) s)

def digest (message : List UInt8) : State :=
  (blocks ((message.length + 72) / 64) (words (pad message))).foldl compress .initial

/-! ## Digits -/

def hexWord (w : Word) : List Char :=
  [7, 6, 5, 4, 3, 2, 1, 0].map fun i => Nat.digitChar (w.toNat / 16 ^ i % 16)

/-- The digest in 64 hexadecimal digits. -/
def hexDigest (message : List UInt8) : List Char := (digest message).words.flatMap hexWord

theorem length_hexDigest (message : List UInt8) : (hexDigest message).length = 64 := rfl

theorem digit_of_mem_hexDigest {message : List UInt8} {c : Char} (h : c ∈ hexDigest message) :
    ∃ n < 16, c = Nat.digitChar n := by
  obtain ⟨w, -, hc⟩ := List.mem_flatMap.mp h
  obtain ⟨i, -, rfl⟩ := List.mem_map.mp hc
  exact ⟨_, Nat.mod_lt _ (by decide), rfl⟩

example : String.ofList (hexDigest []) =
    "e3b0c44298fc1c149afbf4c8996fb92427ae41e4649b934ca495991b7852b855" := by decide +kernel

end AtlasManager.Lib.Sha256
