import Assay.Zlib.Inflate

namespace Assay.Zlib

def checksumModulus : Nat := 65521

/-- The checksum: the sum of all bytes and one, and the sum of these sums after every byte. -/
def checksum (bytes : Output) : Nat :=
  let sums := bytes.foldl (fun (sums : Nat × Nat) b =>
    let low := (sums.1 + b.toNat) % checksumModulus
    (low, (sums.2 + low) % checksumModulus)) (1, 0)
  sums.2 * 65536 + sums.1

/-- Whether two bytes name this method, a window that is small enough, and no dictionary. -/
def isFrame (method flags : Nat) : Bool :=
  (method * 256 + flags) % 31 == 0 && method % 16 == 8 && method / 16 ≤ 7 && flags / 32 % 2 == 0

def highNumber : Nat → Nat → Read Nat
  | 0, n => pure n
  | count + 1, n => do
    let b ← number 8
    highNumber count (256 * n + b)

def decompress (stream : Bytes) : Except Fault Bytes :=
  let input := stream.flatMap bitsOf
  match (do let method ← number 8; let flags ← number 8; pure (method, flags) : Read (Nat × Nat))
    input with
  | .error e => .error e
  | .ok ((method, flags), rest) =>
    if !isFrame method flags then .error .corrupt
    else
      match inflate rest with
      | .error e => .error e
      | .ok (out, rest) =>
        match (do align; highNumber 4 0 : Read Nat) rest with
        | .error e => .error e
        | .ok (sum, _) => if sum = checksum out then .ok out.toList else .error .corrupt

end Assay.Zlib
