/-!
# Universally unique identifiers

128 bits, written with hyphens and lower-case digits and read in four forms.
-/

namespace SqlTree

structure Uuid where
  bits : BitVec 128
  deriving DecidableEq, Repr

namespace Uuid

/-- The `n` last hexadecimal digits of a number. -/
def hexDigits : Nat → Nat → List Char
  | 0, _ => []
  | n + 1, v => hexDigits n (v / 16) ++ [Nat.digitChar (v % 16)]

/-- Groups of 8, 4, 4, 4 and 12 digits. -/
def text (u : Uuid) : String :=
  let ds := hexDigits 32 u.bits.toNat
  .ofList (ds.take 8 ++ '-' :: (ds.drop 8).take 4 ++ '-' :: (ds.drop 12).take 4 ++
    '-' :: (ds.drop 16).take 4 ++ '-' :: ds.drop 20)

def digitValue? (c : Char) : Option Nat :=
  if c.isDigit then some (c.toNat - '0'.toNat)
  else if 'a' ≤ c ∧ c ≤ 'f' then some (c.toNat - 'a'.toNat + 10)
  else if 'A' ≤ c ∧ c ≤ 'F' then some (c.toNat - 'A'.toNat + 10)
  else none

/-- Exactly 32 digits. -/
def ofDigits? (cs : List Char) : Option Uuid :=
  if cs.length = 32 then do
    let ds ← cs.mapM digitValue?
    return ⟨BitVec.ofNat 128 (ds.foldl (fun n d => n * 16 + d) 0)⟩
  else none

/-- 36 characters with hyphens at four places. -/
def ofHyphenated? (cs : List Char) : Option Uuid :=
  if cs.length = 36 ∧ [8, 13, 18, 23].all (fun i => cs[i]? == some '-') then
    ofDigits? (cs.take 8 ++ (cs.drop 9).take 4 ++ (cs.drop 14).take 4 ++ (cs.drop 19).take 4 ++
      cs.drop 24)
  else none

/-- Digits alone, with hyphens, with hyphens in braces, or with hyphens after `urn:uuid:`. -/
def ofText? (s : String) : Option Uuid :=
  let cs := s.toList
  match cs with
  | '{' :: rest => if rest.getLast? = some '}' then ofHyphenated? rest.dropLast else none
  | _ =>
    if "urn:uuid:".toList.isPrefixOf cs then ofHyphenated? (cs.drop 9)
    else if cs.length = 32 then ofDigits? cs
    else ofHyphenated? cs

end Uuid

end SqlTree
