import Icode.PyText

/-!
# SHA-256

`sha256` is the digest of a byte string as `hashlib.sha256(data).hexdigest()`
returns it: 64 lowercase hexadecimal digits. Words are numbers below `2^32`.
`hmacSha256` is the keyed digest built from it.
No result about the code needs more of it than that it is a function; that no
collision occurs is a hypothesis of the results that rest on it (`NoCollision`).
-/

namespace Py

namespace Sha256

/-- Words are taken modulo `2^32`. -/
def wordMod : ℕ := 0x100000000

/-- Rotate a word right by `k`. -/
def rotr (k x : ℕ) : ℕ :=
  x >>> k ||| (x <<< (32 - k)) % wordMod

/-- The round constants. -/
def roundConstants : List ℕ :=
  [0x428a2f98, 0x71374491, 0xb5c0fbcf, 0xe9b5dba5, 0x3956c25b, 0x59f111f1, 0x923f82a4, 0xab1c5ed5,
   0xd807aa98, 0x12835b01, 0x243185be, 0x550c7dc3, 0x72be5d74, 0x80deb1fe, 0x9bdc06a7, 0xc19bf174,
   0xe49b69c1, 0xefbe4786, 0x0fc19dc6, 0x240ca1cc, 0x2de92c6f, 0x4a7484aa, 0x5cb0a9dc, 0x76f988da,
   0x983e5152, 0xa831c66d, 0xb00327c8, 0xbf597fc7, 0xc6e00bf3, 0xd5a79147, 0x06ca6351, 0x14292967,
   0x27b70a85, 0x2e1b2138, 0x4d2c6dfc, 0x53380d13, 0x650a7354, 0x766a0abb, 0x81c2c92e, 0x92722c85,
   0xa2bfe8a1, 0xa81a664b, 0xc24b8b70, 0xc76c51a3, 0xd192e819, 0xd6990624, 0xf40e3585, 0x106aa070,
   0x19a4c116, 0x1e376c08, 0x2748774c, 0x34b0bcb5, 0x391c0cb3, 0x4ed8aa4a, 0x5b9cca4f, 0x682e6ff3,
   0x748f82ee, 0x78a5636f, 0x84c87814, 0x8cc70208, 0x90befffa, 0xa4506ceb, 0xbef9a3f7, 0xc67178f2]

/-- The eight chaining words. -/
structure State where
  a : ℕ
  b : ℕ
  c : ℕ
  d : ℕ
  e : ℕ
  f : ℕ
  g : ℕ
  h : ℕ

def initial : State :=
  ⟨0x6a09e667, 0xbb67ae85, 0x3c6ef372, 0xa54ff53a, 0x510e527f, 0x9b05688c, 0x1f83d9ab, 0x5be0cd19⟩

/-- One round with the constant `k` and the schedule word `w`. -/
def round (s : State) (k w : ℕ) : State :=
  let s1 := rotr 6 s.e ^^^ rotr 11 s.e ^^^ rotr 25 s.e
  let ch := (s.e &&& s.f) ^^^ ((s.e ^^^ 0xFFFFFFFF) &&& s.g)
  let t1 := s.h + s1 + ch + k + w
  let s0 := rotr 2 s.a ^^^ rotr 13 s.a ^^^ rotr 22 s.a
  let maj := (s.a &&& s.b) ^^^ (s.a &&& s.c) ^^^ (s.b &&& s.c)
  ⟨(t1 + s0 + maj) % wordMod, s.a, s.b, s.c, (s.d + t1) % wordMod, s.e, s.f, s.g⟩

/-- The rounds, consuming the constants. `ws` holds the next sixteen schedule words. -/
def rounds : List ℕ → List ℕ → State → State
  | k :: ks, w :: ws, s =>
    let w15 := ws.headD 0
    let w2 := ws.getD 13 0
    let s0 := rotr 7 w15 ^^^ rotr 18 w15 ^^^ w15 >>> 3
    let s1 := rotr 17 w2 ^^^ rotr 19 w2 ^^^ w2 >>> 10
    rounds ks (ws ++ [(w + s0 + ws.getD 8 0 + s1) % wordMod]) (round s k w)
  | _, _, s => s

/-- Compress one block of sixteen words. -/
def compress (s : State) (block : List ℕ) : State :=
  let r := rounds roundConstants block s
  ⟨(s.a + r.a) % wordMod, (s.b + r.b) % wordMod, (s.c + r.c) % wordMod, (s.d + r.d) % wordMod,
    (s.e + r.e) % wordMod, (s.f + r.f) % wordMod, (s.g + r.g) % wordMod, (s.h + r.h) % wordMod⟩

/-- Big-endian words of the bytes. -/
def words : List ℕ → List ℕ
  | b0 :: b1 :: b2 :: b3 :: rest => (b0 * 0x1000000 + b1 * 0x10000 + b2 * 0x100 + b3) :: words rest
  | _ => []

/-- The message with its end mark and its length in bits, a multiple of 64 bytes. -/
def pad (data : List ℕ) : List ℕ :=
  let n := data.length
  let zeros := (119 - n % 64) % 64
  let bits := n * 8
  data ++ 0x80 :: List.replicate zeros 0 ++
    (List.range 8).map fun i => bits >>> (8 * (7 - i)) % 256

/-- Compress all blocks; `fuel` bounds their number. -/
def blocks : ℕ → List ℕ → State → State
  | 0, _, s => s
  | fuel + 1, ws, s =>
    if ws.isEmpty then s else blocks fuel (ws.drop 16) (compress s (ws.take 16))

end Sha256

/-- The eight chaining words of a message. -/
def sha256Words (data : Bytes) : List ℕ :=
  let ws := Sha256.words (Sha256.pad (data.map UInt8.toNat))
  let s := Sha256.blocks ws.length ws Sha256.initial
  [s.a, s.b, s.c, s.d, s.e, s.f, s.g, s.h]

/-- The eight digits of a word. -/
def hexWord (w : ℕ) : List CodePoint :=
  (List.range 8).map fun i => .scalar (hexDigit (w >>> (4 * (7 - i)) % 16))

/-- `hashlib.sha256(data).hexdigest()`. -/
def sha256 (data : Bytes) : PyStr :=
  (sha256Words data).flatMap hexWord

/-- `hashlib.sha256(data).digest()`. -/
def sha256Digest (data : Bytes) : Bytes :=
  (sha256Words data).flatMap fun w => (List.range 4).map fun i => UInt8.ofNat (w >>> (8 * (3 - i)))

/-- `hmac.new(key, message, hashlib.sha256).hexdigest()` for a key of at most 64 bytes. -/
def hmacSha256 (key message : Bytes) : PyStr :=
  let padded := key ++ List.replicate (64 - key.length) 0
  let inner := sha256Digest (padded.map (· ^^^ 0x36) ++ message)
  sha256 (padded.map (· ^^^ 0x5C) ++ inner)

theorem isHexText_hexDigit : ∀ n < 16, isHexText 1 [.scalar (hexDigit n)] = true := by
  decide

/-- A digest is 64 hexadecimal digits. -/
theorem isHexText_sha256 (data : Bytes) : isHexText 64 (sha256 data) = true := by
  have hlen : (sha256 data).length = 64 := by simp [sha256, sha256Words, hexWord]
  simp only [isHexText, hlen, beq_self_eq_true, Bool.true_and, List.all_eq_true]
  intro c hc
  obtain ⟨w, -, hc⟩ := List.mem_flatMap.mp hc
  obtain ⟨i, -, rfl⟩ := List.mem_map.mp hc
  have := isHexText_hexDigit (w >>> (4 * (7 - i)) % 16) (Nat.mod_lt _ (by decide))
  simpa [isHexText] using this

theorem isHexText_hmacSha256 (key message : Bytes) : isHexText 64 (hmacSha256 key message) = true :=
  isHexText_sha256 _

/-- `sha256` has no collision among the byte strings of `p`. -/
def NoCollision (p : Bytes → Prop) : Prop :=
  ∀ x y, p x → p y → sha256 x = sha256 y → x = y

end Py
