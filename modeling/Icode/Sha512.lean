import Icode.Sha256

/-!
# SHA-512

`sha512` is the digest of a byte string as `hashlib.sha512(data).digest()` returns it : 64 bytes.
It has the state of `Sha256` with words below `2^64`, eighty rounds and blocks of 128 bytes.
-/

namespace Py

namespace Sha512

/-- Words are taken modulo `2^64`. -/
def wordMod : ℕ := 0x10000000000000000

/-- Rotate a word right by `k`. -/
def rotr (k x : ℕ) : ℕ :=
  x >>> k ||| (x <<< (64 - k)) % wordMod

/-- The round constants. -/
def roundConstants : List ℕ :=
  [0x428a2f98d728ae22, 0x7137449123ef65cd, 0xb5c0fbcfec4d3b2f, 0xe9b5dba58189dbbc,
   0x3956c25bf348b538, 0x59f111f1b605d019, 0x923f82a4af194f9b, 0xab1c5ed5da6d8118,
   0xd807aa98a3030242, 0x12835b0145706fbe, 0x243185be4ee4b28c, 0x550c7dc3d5ffb4e2,
   0x72be5d74f27b896f, 0x80deb1fe3b1696b1, 0x9bdc06a725c71235, 0xc19bf174cf692694,
   0xe49b69c19ef14ad2, 0xefbe4786384f25e3, 0x0fc19dc68b8cd5b5, 0x240ca1cc77ac9c65,
   0x2de92c6f592b0275, 0x4a7484aa6ea6e483, 0x5cb0a9dcbd41fbd4, 0x76f988da831153b5,
   0x983e5152ee66dfab, 0xa831c66d2db43210, 0xb00327c898fb213f, 0xbf597fc7beef0ee4,
   0xc6e00bf33da88fc2, 0xd5a79147930aa725, 0x06ca6351e003826f, 0x142929670a0e6e70,
   0x27b70a8546d22ffc, 0x2e1b21385c26c926, 0x4d2c6dfc5ac42aed, 0x53380d139d95b3df,
   0x650a73548baf63de, 0x766a0abb3c77b2a8, 0x81c2c92e47edaee6, 0x92722c851482353b,
   0xa2bfe8a14cf10364, 0xa81a664bbc423001, 0xc24b8b70d0f89791, 0xc76c51a30654be30,
   0xd192e819d6ef5218, 0xd69906245565a910, 0xf40e35855771202a, 0x106aa07032bbd1b8,
   0x19a4c116b8d2d0c8, 0x1e376c085141ab53, 0x2748774cdf8eeb99, 0x34b0bcb5e19b48a8,
   0x391c0cb3c5c95a63, 0x4ed8aa4ae3418acb, 0x5b9cca4f7763e373, 0x682e6ff3d6b2b8a3,
   0x748f82ee5defb2fc, 0x78a5636f43172f60, 0x84c87814a1f0ab72, 0x8cc702081a6439ec,
   0x90befffa23631e28, 0xa4506cebde82bde9, 0xbef9a3f7b2c67915, 0xc67178f2e372532b,
   0xca273eceea26619c, 0xd186b8c721c0c207, 0xeada7dd6cde0eb1e, 0xf57d4f7fee6ed178,
   0x06f067aa72176fba, 0x0a637dc5a2c898a6, 0x113f9804bef90dae, 0x1b710b35131c471b,
   0x28db77f523047d84, 0x32caab7b40c72493, 0x3c9ebe0a15c9bebc, 0x431d67c49c100d4c,
   0x4cc5d4becb3e42b6, 0x597f299cfc657e2a, 0x5fcb6fab3ad6faec, 0x6c44198c4a475817]

def initial : Sha256.State :=
  ⟨0x6a09e667f3bcc908, 0xbb67ae8584caa73b, 0x3c6ef372fe94f82b,
    0xa54ff53a5f1d36f1, 0x510e527fade682d1, 0x9b05688c2b3e6c1f,
    0x1f83d9abfb41bd6b, 0x5be0cd19137e2179⟩

/-- One round with the constant `k` and the schedule word `w`. -/
def round (s : Sha256.State) (k w : ℕ) : Sha256.State :=
  let s1 := rotr 14 s.e ^^^ rotr 18 s.e ^^^ rotr 41 s.e
  let ch := (s.e &&& s.f) ^^^ ((s.e ^^^ 0xFFFFFFFFFFFFFFFF) &&& s.g)
  let t1 := s.h + s1 + ch + k + w
  let s0 := rotr 28 s.a ^^^ rotr 34 s.a ^^^ rotr 39 s.a
  let maj := (s.a &&& s.b) ^^^ (s.a &&& s.c) ^^^ (s.b &&& s.c)
  ⟨(t1 + s0 + maj) % wordMod, s.a, s.b, s.c, (s.d + t1) % wordMod, s.e, s.f, s.g⟩

/-- The rounds, consuming the constants. `ws` holds the next sixteen schedule words. -/
def rounds : List ℕ → List ℕ → Sha256.State → Sha256.State
  | k :: ks, w :: ws, s =>
    let w15 := ws.headD 0
    let w2 := ws.getD 13 0
    let s0 := rotr 1 w15 ^^^ rotr 8 w15 ^^^ w15 >>> 7
    let s1 := rotr 19 w2 ^^^ rotr 61 w2 ^^^ w2 >>> 6
    rounds ks (ws ++ [(w + s0 + ws.getD 8 0 + s1) % wordMod]) (round s k w)
  | _, _, s => s

/-- Compress one block of sixteen words. -/
def compress (s : Sha256.State) (block : List ℕ) : Sha256.State :=
  let r := rounds roundConstants block s
  ⟨(s.a + r.a) % wordMod, (s.b + r.b) % wordMod, (s.c + r.c) % wordMod, (s.d + r.d) % wordMod,
    (s.e + r.e) % wordMod, (s.f + r.f) % wordMod, (s.g + r.g) % wordMod, (s.h + r.h) % wordMod⟩

/-- Big-endian words of the bytes. -/
def words : List ℕ → List ℕ
  | b0 :: b1 :: b2 :: b3 :: b4 :: b5 :: b6 :: b7 :: rest =>
    ([b0, b1, b2, b3, b4, b5, b6, b7].foldl (fun w b => w * 0x100 + b) 0) :: words rest
  | _ => []

/-- The message with its end mark and its length in bits, a multiple of 128 bytes. -/
def pad (data : List ℕ) : List ℕ :=
  let n := data.length
  let zeros := (239 - n % 128) % 128
  let bits := n * 8
  data ++ 0x80 :: List.replicate zeros 0 ++
    (List.range 16).map fun i => bits >>> (8 * (15 - i)) % 256

/-- Compress all blocks; `fuel` bounds their number. -/
def blocks : ℕ → List ℕ → Sha256.State → Sha256.State
  | 0, _, s => s
  | fuel + 1, ws, s =>
    if ws.isEmpty then s else blocks fuel (ws.drop 16) (compress s (ws.take 16))

end Sha512

/-- `hashlib.sha512(data).digest()`. -/
def sha512 (data : Bytes) : Bytes :=
  let ws := Sha512.words (Sha512.pad (data.map UInt8.toNat))
  let s := Sha512.blocks ws.length ws Sha512.initial
  [s.a, s.b, s.c, s.d, s.e, s.f, s.g, s.h].flatMap fun w =>
    (List.range 8).map fun i => UInt8.ofNat (w >>> (8 * (7 - i)))

end Py
