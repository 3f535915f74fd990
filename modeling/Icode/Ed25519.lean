import Icode.Sha512

/-!
# Ed25519

`ed25519Verify` (`ed25519_verify`) checks a signature of RFC 8032 over plain integers. Points are
in extended coordinates modulo `edP`, and the additions are unified, so no point is treated apart.
-/

namespace Icode

open Py

/-! ## The field -/

/-- The binary method of `pow`, for an exponent of at most `fuel` bits. -/
def powBits (modulus : ℤ) : ℕ → ℕ → ℤ → ℤ → ℤ
  | 0, _, _, acc => acc
  | fuel + 1, exponent, base, acc =>
    powBits modulus fuel (exponent / 2) (base * base % modulus)
      (if exponent % 2 = 1 then acc * base % modulus else acc)

/-- `pow(base, exponent, modulus)`. -/
def powMod (base : ℤ) (exponent : ℕ) (modulus : ℤ) : ℤ :=
  powBits modulus (exponent.log2 + 1) exponent (base % modulus) (1 % modulus)

/-- `_ED_P` -/
def edP : ℤ := 2 ^ 255 - 19

/-- `_ED_L` -/
def edL : ℕ := 2 ^ 252 + 27742317777372353535851937790883648493

/-- `_ed_inv`. -/
def edInv (x : ℤ) : ℤ :=
  powMod x (edP - 2).toNat edP

/-- `_ED_D` -/
def edD : ℤ := -121665 * powMod 121666 (edP - 2).toNat edP % edP

/-- `_ED_I` -/
def edI : ℤ := powMod 2 ((edP - 1).toNat / 4) edP

/-! ## Points -/

/-- A point in extended coordinates. -/
structure EdPoint where
  x : ℤ
  y : ℤ
  z : ℤ
  t : ℤ

/-- `_ED_GX` -/
def edGX : ℤ := 15112221349535400772501151409588531511454012693041857206046113283949847762202

/-- `_ED_GY` -/
def edGY : ℤ := 46316835694926478169428394003475163141307993866256225615783033603165251855960

/-- `_ED_G` -/
def edG : EdPoint :=
  ⟨edGX, edGY, 1, edGX * edGY % edP⟩

/-- `_ED_IDENTITY` -/
def edIdentity : EdPoint :=
  ⟨0, 1, 1, 0⟩

/-- `_ed_point_add`. -/
def edPointAdd (p q : EdPoint) : EdPoint :=
  let a := (p.y - p.x) * (q.y - q.x) % edP
  let b := (p.y + p.x) * (q.y + q.x) % edP
  let c := 2 * p.t * q.t * edD % edP
  let d := 2 * p.z * q.z % edP
  let e := b - a
  let f := d - c
  let g := d + c
  let h := b + a
  ⟨e * f % edP, g * h % edP, f * g % edP, e * h % edP⟩

/-- The loop of `_ed_point_mul` over the bits of the scalar, of which there are at most `fuel`. -/
def edPointMulLoop : ℕ → ℕ → EdPoint → EdPoint → EdPoint
  | 0, _, _, result => result
  | fuel + 1, scalar, addend, result =>
    if scalar = 0 then result
    else
      edPointMulLoop fuel (scalar / 2) (edPointAdd addend addend)
        (if scalar % 2 = 1 then edPointAdd result addend else result)

/-- `_ed_point_mul`. -/
def edPointMul (scalar : ℕ) (point : EdPoint) : EdPoint :=
  edPointMulLoop (scalar.log2 + 1) scalar point edIdentity

/-! ## Encodings -/

/-- `int.from_bytes(data, "little")`. -/
def fromLittleEndian (data : Bytes) : ℕ :=
  data.foldr (fun b n => b.toNat + 256 * n) 0

/-- `n.to_bytes(length, "little")`. -/
def toLittleEndian (n length : ℕ) : Bytes :=
  (List.range length).map fun i => UInt8.ofNat (n >>> (8 * i))

/-- `_ed_compress`. -/
def edCompress (point : EdPoint) : Bytes :=
  let zinv := edInv point.z
  let x := (point.x * zinv % edP).toNat
  let y := (point.y * zinv % edP).toNat
  toLittleEndian (y ||| (x % 2) <<< 255) 32

/-- `_ed_recover_x`. -/
def edRecoverX (y : ℤ) (sign : ℕ) : Option ℤ :=
  if edP ≤ y then none
  else
    let x2 := (y * y - 1) * edInv (edD * y * y + 1) % edP
    if x2 = 0 then if sign = 0 then some 0 else none
    else
      let root := powMod x2 ((edP + 3).toNat / 8) edP
      let x := if (root * root - x2) % edP = 0 then root else root * edI % edP
      if (x * x - x2) % edP = 0 then some (if x % 2 = sign then x else edP - x) else none

/-- `_ed_decompress`. -/
def edDecompress (encoded : Bytes) : Option EdPoint :=
  if encoded.length = 32 then
    let val := fromLittleEndian encoded
    let sign := val >>> 255 % 2
    let y : ℤ := (val % 2 ^ 255 : ℕ)
    (edRecoverX y sign).map fun x => ⟨x, y, 1, x * y % edP⟩
  else none

/-! ## Signatures -/

/-- `ed25519_verify`. -/
def ed25519Verify (publicKey message signature : Bytes) : Bool :=
  if publicKey.length ≠ 32 ∨ signature.length ≠ 64 then false
  else
    let rEnc := signature.take 32
    let s := fromLittleEndian (signature.drop 32)
    match edDecompress publicKey, edDecompress rEnc with
    | some a, some r =>
      if edL ≤ s then false
      else
        let k := fromLittleEndian (sha512 (rEnc ++ publicKey ++ message)) % edL
        edCompress (edPointMul s edG) == edCompress (edPointAdd r (edPointMul k a))
    | _, _ => false

/-! ## The hash as a parameter -/

section Hash

variable (hash : Bytes → Bytes)

/-- `_ed_secret_expand`; `none` is the `ValueError` for a seed of another length. -/
def edSecretExpand (seed : Bytes) : Option (ℕ × Bytes) :=
  if seed.length ≠ 32 then none
  else
    let h := hash seed
    let a := fromLittleEndian (h.take 32)
    some (a &&& (2 ^ 254 - 8) ||| 2 ^ 254, h.drop 32)

/-- `ed25519_public_key`. -/
def ed25519PublicKey (seed : Bytes) : Option Bytes :=
  (edSecretExpand hash seed).map fun (a, _) => edCompress (edPointMul a edG)

/-- `ed25519_sign`. -/
def ed25519Sign (seed message : Bytes) : Option Bytes :=
  (edSecretExpand hash seed).map fun (a, secret) =>
    let publicKey := edCompress (edPointMul a edG)
    let r := fromLittleEndian (hash (secret ++ message)) % edL
    let rEnc := edCompress (edPointMul r edG)
    let k := fromLittleEndian (hash (rEnc ++ publicKey ++ message)) % edL
    let s := (r + k * a) % edL
    rEnc ++ toLittleEndian s 32

/-- `_ed_verify_core`. -/
def edVerifyCore (publicKey message signature dom : Bytes) : Bool :=
  if publicKey.length ≠ 32 ∨ signature.length ≠ 64 then false
  else
    match edDecompress publicKey with
    | none => false
    | some a =>
      let rEnc := signature.take 32
      let s := fromLittleEndian (signature.drop 32)
      if edL ≤ s then false
      else
        match edDecompress rEnc with
        | none => false
        | some r =>
          let k := fromLittleEndian (hash (dom ++ rEnc ++ publicKey ++ message)) % edL
          edCompress (edPointMul s edG) == edCompress (edPointAdd r (edPointMul k a))

end Hash

/-- `ed25519_verify` calls the core with SHA-512 and no context. -/
theorem ed25519Verify_eq_core (publicKey message signature : Bytes) :
    ed25519Verify publicKey message signature =
      edVerifyCore sha512 publicKey message signature [] := by
  unfold ed25519Verify edVerifyCore
  dsimp only [List.nil_append]
  cases edDecompress publicKey with
  | none => simp
  | some a => cases edDecompress (signature.take 32) <;> simp

end Icode
