import Mathlib.Data.List.Basic

/-!
# Block ciphers

What a protocol uses of a block cipher: a block that has been encrypted is decrypted under the same
key.
-/

namespace Tox.Foundation

/-- The encryption of blocks of sixteen bytes under a fixed key. -/
structure BlockCipher where
  encrypt : List UInt8 → List UInt8
  decrypt : List UInt8 → List UInt8
  decrypt_encrypt : ∀ block, block.length = 16 → decrypt (encrypt block) = block

end Tox.Foundation
