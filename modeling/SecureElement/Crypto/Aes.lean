import SecureElement.Octets

/-!
The AES block cipher and its use on messages of any length (cipher block chaining with padding).

A block is sixteen octets, column by column of a square. `encryptBlock` and `decryptBlock` undo each
other under the same round keys; so do `Cbc.encrypt` and `Cbc.decrypt`.
-/

namespace SecureElement.Crypto

namespace Aes

/-! ### The field of 256 elements -/

/-- The double of a field element. -/
def double (a : UInt8) : UInt8 :=
  (a <<< 1) ^^^ (if 0x80 ≤ a then 0x1B else 0)

/-- The product of `a` and the number that the last `bits` bits of `b` spell. -/
def mulBits : (bits : Nat) → (a b : UInt8) → UInt8
  | 0, _, _ => 0
  | bits + 1, a, b => (if b % 2 = 1 then a else 0) ^^^ mulBits bits (double a) (b >>> 1)

/-- The product of two field elements. -/
def mul (a b : UInt8) : UInt8 :=
  mulBits 8 a b

/-- The power of a field element. -/
def pow (a : UInt8) : Nat → UInt8
  | 0 => 1
  | n + 1 => mul a (pow a n)

/-- The inverse of a field element; that of zero is zero. -/
def inverse (a : UInt8) : UInt8 :=
  pow a 254

/-! ### Substitution -/

/-- An octet rotated to the left. -/
def rotate (b n : UInt8) : UInt8 :=
  (b <<< n) ||| (b >>> (8 - n))

/-- What an octet is replaced by. -/
def substitute (a : UInt8) : UInt8 :=
  let b := inverse a
  b ^^^ rotate b 1 ^^^ rotate b 2 ^^^ rotate b 3 ^^^ rotate b 4 ^^^ 0x63

/-- The table of replacements. -/
def table : Array UInt8 :=
  ((List.range 256).map fun n => substitute (UInt8.ofNat n)).toArray

/-- The table of the replacements undone. -/
def inverseTable : Array UInt8 :=
  ((List.range 256).map fun n => UInt8.ofNat (table.toList.idxOf (UInt8.ofNat n))).toArray

/-- The octets that a table puts in place of others. -/
def lookUp (table : Array UInt8) (bytes : Octets) : Octets :=
  bytes.map fun b => table.getD b.toNat 0

/-! ### Rounds -/

/-- The rows of a block, each moved to the left by its number times `step` places. -/
def shiftRows (step : Nat) (block : Octets) : Octets :=
  (List.range 16).map fun i => block.getD ((i + 4 * step * (i % 4)) % 16) 0

/-- A column multiplied by the matrix whose rows are the given one and its rotations. -/
def mixColumn (row : Octets) (column : Octets) : Octets :=
  (List.range 4).map fun r =>
    ((List.range 4).map fun j => mul (row.getD ((j + 4 - r) % 4) 0) (column.getD j 0)).foldl
      (· ^^^ ·) 0

/-- The columns of a block, each multiplied by a matrix. -/
def mixColumns (row : Octets) (block : Octets) : Octets :=
  (block.chunks 4).flatMap (mixColumn row)

/-- The first row of the matrix that mixes columns. -/
def mixRow : Octets := [0x02, 0x03, 0x01, 0x01]

/-- The first row of the inverse of that matrix. -/
def unmixRow : Octets := [0x0E, 0x0B, 0x0D, 0x09]

/-! ### Keys -/

/-- The next `count` words of the expanded key, from the last `recent` ones on. `place` is the
number of the word after them, `constant` what the next group is marked with. -/
def expand (groupSize : Nat) : (count place : Nat) → (constant : UInt8) → List Octets → List Octets
  | 0, _, _, _ => []
  | count + 1, place, constant, recent =>
      let first := recent.headD []
      let last := recent.getLastD []
      let startsGroup := place % groupSize = 0
      let driven :=
        if startsGroup then
          Octets.xor (lookUp table (last.tail ++ last.take 1)) [constant, 0, 0, 0]
        else if 6 < groupSize ∧ place % groupSize = 4 then lookUp table last
        else last
      let constant := if startsGroup then double constant else constant
      first :: expand groupSize count (place + 1) constant (recent.tail ++ [Octets.xor first driven])

/-- The round keys of a key of 16, 24 or 32 octets. -/
def roundKeys (key : Octets) : List Octets :=
  let groupSize := key.length / 4
  Octets.chunks 16 (expand groupSize (4 * (groupSize + 7)) groupSize 1 (key.chunks 4)).flatten

/-- A block encrypted with the round keys after the first, which has been added. -/
def encryptRounds (block : Octets) : List Octets → Octets
  | [] => block
  | [last] => Octets.xor (shiftRows 1 (lookUp table block)) last
  | key :: rest =>
      encryptRounds (Octets.xor (mixColumns mixRow (shiftRows 1 (lookUp table block))) key) rest

/-- A block encrypted. -/
def encryptBlock (keys : List Octets) (block : Octets) : Octets :=
  encryptRounds (Octets.xor block (keys.headD [])) keys.tail

/-- A block decrypted up to the first round key, which is yet to be added. -/
def decryptRounds (block : Octets) : List Octets → Octets
  | [] => block
  | [last] => lookUp inverseTable (shiftRows 3 (Octets.xor block last))
  | key :: rest =>
      lookUp inverseTable (shiftRows 3 (mixColumns unmixRow
        (Octets.xor (decryptRounds block rest) key)))

/-- A block decrypted. -/
def decryptBlock (keys : List Octets) (block : Octets) : Octets :=
  Octets.xor (decryptRounds block keys.tail) (keys.headD [])

end Aes

namespace Cbc

/-- The number of octets in a block. -/
def blockSize : Nat := 16

/-- A message filled up to whole blocks, with octets that tell their number. -/
def addPadding (message : Octets) : Octets :=
  let missing := blockSize - message.length % blockSize
  message ++ List.replicate missing (UInt8.ofNat missing)

/-- A message without its padding. -/
def removePadding (blocks : Octets) : Option Octets := do
  let last ← blocks.getLast?
  let n := last.toNat
  let kept := blocks.take (blocks.length - n)
  guard (1 ≤ n ∧ n ≤ blockSize ∧ blocks = kept ++ List.replicate n last)
  some kept

/-- Blocks encrypted, each after the encrypted one before it has been added. -/
def encryptBlocks (keys : List Octets) : (before : Octets) → List Octets → Octets
  | _, [] => []
  | before, block :: rest =>
      let out := Aes.encryptBlock keys (Octets.xor before block)
      out ++ encryptBlocks keys out rest

/-- Blocks decrypted, the encrypted one before each added afterwards. -/
def decryptBlocks (keys : List Octets) : (before : Octets) → List Octets → Octets
  | _, [] => []
  | before, block :: rest =>
      Octets.xor before (Aes.decryptBlock keys block) ++ decryptBlocks keys block rest

/-- A message encrypted under a key from a start vector. -/
def encrypt (key start message : Octets) : Octets :=
  encryptBlocks (Aes.roundKeys key) start ((addPadding message).chunks blockSize)

/-- The message that whole blocks encrypt, if its padding is sound. -/
def decrypt (key start blocks : Octets) : Option Octets := do
  guard (blocks.length % blockSize = 0)
  removePadding (decryptBlocks (Aes.roundKeys key) start (blocks.chunks blockSize))

end Cbc

end SecureElement.Crypto
