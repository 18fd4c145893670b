/-!
# The FNV-1a hash of 64 bits
-/

namespace Script.Hash

/-- Each byte is mixed into the low end of the hash, which is then multiplied
by the FNV prime. -/
def fnv1a (bytes : List UInt8) : UInt64 :=
  bytes.foldl (fun hash byte => (hash ^^^ byte.toUInt64) * 0x100000001b3)
    0xcbf29ce484222325

/-- The hash of a text in UTF-8. -/
def ofText (text : String) : UInt64 := fnv1a text.toUTF8.toList

end Script.Hash
