import Icode.Sha256

/-!
# SHA-1

`sha1Digest` is the digest of a byte string as `hashlib.sha1(data).digest()` returns it: 20 bytes.
The padding and the words are those of SHA-256.
-/

namespace Py

namespace Sha1

open Sha256 (wordMod pad words)

/-- Rotate a word left by `k`. -/
def rotl (k x : ℕ) : ℕ :=
  (x <<< k) % wordMod ||| x >>> (32 - k)

/-- The five chaining words. -/
structure State where
  a : ℕ
  b : ℕ
  c : ℕ
  d : ℕ
  e : ℕ

def initial : State :=
  ⟨0x67452301, 0xEFCDAB89, 0x98BADCFE, 0x10325476, 0xC3D2E1F0⟩

/-- The function and the constant of the round `t`. -/
def mix (t : ℕ) (s : State) : ℕ × ℕ :=
  if t < 20 then ((s.b &&& s.c) ||| ((s.b ^^^ 0xFFFFFFFF) &&& s.d), 0x5A827999)
  else if t < 40 then (s.b ^^^ s.c ^^^ s.d, 0x6ED9EBA1)
  else if t < 60 then ((s.b &&& s.c) ||| (s.b &&& s.d) ||| (s.c &&& s.d), 0x8F1BBCDC)
  else (s.b ^^^ s.c ^^^ s.d, 0xCA62C1D6)

/-- The last `n` of the eighty rounds. `ws` holds the next sixteen schedule words. -/
def rounds : ℕ → List ℕ → State → State
  | 0, _, s => s
  | n + 1, ws, s =>
    let w := ws.headD 0
    let next := rotl 1 (ws.getD 13 0 ^^^ ws.getD 8 0 ^^^ ws.getD 2 0 ^^^ w)
    let (f, k) := mix (79 - n) s
    rounds n (ws.drop 1 ++ [next])
      ⟨(rotl 5 s.a + f + s.e + k + w) % wordMod, s.a, rotl 30 s.b, s.c, s.d⟩

/-- Compress one block of sixteen words. -/
def compress (s : State) (block : List ℕ) : State :=
  let r := rounds 80 block s
  ⟨(s.a + r.a) % wordMod, (s.b + r.b) % wordMod, (s.c + r.c) % wordMod, (s.d + r.d) % wordMod,
    (s.e + r.e) % wordMod⟩

/-- Compress all blocks; `fuel` bounds their number. -/
def blocks : ℕ → List ℕ → State → State
  | 0, _, s => s
  | fuel + 1, ws, s =>
    if ws.isEmpty then s else blocks fuel (ws.drop 16) (compress s (ws.take 16))

end Sha1

/-- `hashlib.sha1(data).digest()`. -/
def sha1Digest (data : Bytes) : Bytes :=
  let ws := Sha256.words (Sha256.pad (data.map UInt8.toNat))
  let s := Sha1.blocks ws.length ws Sha1.initial
  [s.a, s.b, s.c, s.d, s.e].flatMap fun w =>
    (List.range 4).map fun i => UInt8.ofNat (w >>> (8 * (3 - i)))

theorem length_sha1Digest (data : Bytes) : (sha1Digest data).length = 20 := by
  simp [sha1Digest]

theorem length_sha256Digest (data : Bytes) : (sha256Digest data).length = 32 := by
  simp [sha256Digest, sha256Words]

/-- The digest of `abc`. -/
example : sha1Digest [0x61, 0x62, 0x63] =
    [0xA9, 0x99, 0x3E, 0x36, 0x47, 0x06, 0x81, 0x6A, 0xBA, 0x3E, 0x25, 0x71, 0x78, 0x50, 0xC2, 0x6C,
      0x9C, 0xD0, 0xD8, 0x9D] := by
  decide +kernel

end Py
