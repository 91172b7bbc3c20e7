/-!
# Bytes written as basic characters

Each character stands for six bits, so that four of them make three bytes; an equals sign fills up
the last four. Other characters are passed over.
-/

namespace Switchyard.Yaml

def sixBits? (c : Char) : Option Nat :=
  if 'A' ≤ c ∧ c ≤ 'Z' then some (c.toNat - 65)
  else if 'a' ≤ c ∧ c ≤ 'z' then some (c.toNat - 71)
  else if '0' ≤ c ∧ c ≤ '9' then some (c.toNat + 4)
  else if c = '+' then some 62
  else if c = '/' then some 63
  else none

/-- The bytes of a text after `count` characters of a group of four, which stand for `bits`; `fill`
counts the equals signs since. A group that is filled up is the last one. -/
def bytesFrom (count bits fill : Nat) : List Char → Option (List UInt8)
  | [] => if count = 0 then some [] else none
  | '=' :: rest =>
    if 2 ≤ count ∧ 4 ≤ count + fill + 1 then some []
    else bytesFrom count bits (if 2 ≤ count then fill + 1 else fill) rest
  | c :: rest =>
    match sixBits? c with
    | none => bytesFrom count bits fill rest
    | some x =>
      match count with
      | 0 => bytesFrom 1 x 0 rest
      | 1 => (bytesFrom 2 (x % 16) 0 rest).map (UInt8.ofNat (4 * bits + x / 16) :: ·)
      | 2 => (bytesFrom 3 (x % 4) 0 rest).map (UInt8.ofNat (16 * bits + x / 4) :: ·)
      | _ => (bytesFrom 0 0 0 rest).map (UInt8.ofNat (64 * bits + x) :: ·)

/-- The bytes that a text stands for, unless its last group is not complete. -/
def bytesOf (text : List Char) : Option (List UInt8) := bytesFrom 0 0 0 text

end Switchyard.Yaml
