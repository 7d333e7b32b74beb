import Mathlib
import OspabOs.Lib.Decimal

/-!
# IPv4 addresses in the kernel shell

The shell's `ping` reads its argument with `parse_ip_addr`. That splits the
text at every `.`, requires exactly four parts, and reads each one with
`parse::<u8>`. `ping` and `ifconfig` print addresses with
`print_ip_addr`: the four bytes go through `print_num`, joined by `.`.

**The laws.** What is read is exactly four decimal numerals of at most 255
joined by dots (`parseIpAddr_eq_some_iff`). So every printed address is read
back (`parseIpAddr_printIpAddr`).
-/

namespace OspabOs.Shell

open Decimal

/-- `net::IpAddress`, a newtype over the address's four bytes. -/
structure IpAddress where
  bytes : Vector UInt8 4
  deriving DecidableEq, Repr

/-- `part.parse::<u8>()`, which is `u8::from_str_radix(part, 10)`. -/
def parseU8 (part : List Char) : Option UInt8 :=
  (parseUnsigned 255 part).map Nat.toUInt8

/-- `parse_ip_addr`. Any number of parts but four is refused, and so is the
first part that is not a `u8`. -/
def parseIpAddr (s : List Char) : Option IpAddress :=
  match s.splitOn '.' with
  | [p0, p1, p2, p3] => do
    -- the loop stores part `i` in `bytes[i]` and returns at the first failure
    let b0 ← parseU8 p0
    let b1 ← parseU8 p1
    let b2 ← parseU8 p2
    let b3 ← parseU8 p3
    pure ⟨⟨#[b0, b1, b2, b3], rfl⟩⟩
  | _ => none

/-- `print_num`. Its digit buffer is a `[u8; 20]`, which holds every `u64`. -/
def printNum (n : UInt64) : List Char :=
  print 20 n.toNat

/-- `print_ip_addr`. -/
def printIpAddr (ip : IpAddress) : List Char :=
  let bytes := ip.bytes
  printNum bytes[0].toUInt64 ++ '.' :: printNum bytes[1].toUInt64 ++ '.' ::
    printNum bytes[2].toUInt64 ++ '.' :: printNum bytes[3].toUInt64

/-! ## One byte -/

theorem parseU8_eq_some_iff (part : List Char) (b : UInt8) : parseU8 part = some b ↔ Numeral part b.toNat := by
  unfold parseU8
  constructor
  · intro parsed
    obtain ⟨n, read, rfl⟩ := Option.map_eq_some_iff.mp parsed
    obtain ⟨numeral, le⟩ := (parseUnsigned_eq_some_iff 255 part n).mp read
    have small : n.toUInt8.toNat = n := by
      rw [Nat.toUInt8_eq, UInt8.toNat_ofNat_of_lt' (Nat.lt_of_le_of_lt le (by decide))]
    rw [small]
    exact numeral
  · intro numeral
    have le : b.toNat ≤ 255 := by
      have := b.toNat_lt
      omega
    rw [(parseUnsigned_eq_some_iff 255 part b.toNat).mpr ⟨numeral, le⟩, Option.map_some, Nat.toUInt8_eq, UInt8.ofNat_toNat]

/-- Every byte is printed as its numeral. -/
theorem numeral_printNum (b : UInt8) : Numeral (printNum b.toUInt64) b.toNat := by
  unfold printNum
  rw [UInt8.toNat_toUInt64]
  apply numeral_print
  calc b.toNat < 256 := b.toNat_lt
    _ < 10 ^ 20 := by decide

theorem dot_not_mem_numeral {part : List Char} {n : Nat} (numeral : Numeral part n) : '.' ∉ part := by
  intro mem
  rcases mem_numeral numeral mem with plus | digit
  · cases plus
  · cases digit

/-! ## Four bytes -/

theorem IpAddress.eq_of_bytes (ip : IpAddress) :
    ip = ⟨⟨#[ip.bytes[0], ip.bytes[1], ip.bytes[2], ip.bytes[3]], rfl⟩⟩ := by
  obtain ⟨bytes⟩ := ip
  congr 1
  apply Vector.ext
  intro i lt
  -- one case for each of the four bytes
  match i, lt with
  | 0, _ => rfl
  | 1, _ => rfl
  | 2, _ => rfl
  | 3, _ => rfl

theorem printIpAddr_eq_intercalate (ip : IpAddress) :
    printIpAddr ip = ['.'].intercalate
      [printNum ip.bytes[0].toUInt64, printNum ip.bytes[1].toUInt64,
        printNum ip.bytes[2].toUInt64, printNum ip.bytes[3].toUInt64] := by
  simp [printIpAddr, List.intercalate]

/-! ## What parsing accepts -/

/-- `parse_ip_addr` reads exactly four numerals joined by dots, each the value
of the byte it is stored in. -/
theorem parseIpAddr_eq_some_iff (s : List Char) (ip : IpAddress) :
    parseIpAddr s = some ip ↔
      ∃ parts : Vector (List Char) 4, s = ['.'].intercalate parts.toList ∧
        ∀ i : Fin 4, Numeral parts[i] ip.bytes[i].toNat := by
  constructor
  · intro parsed
    unfold parseIpAddr at parsed
    split at parsed
    · rename_i p0 p1 p2 p3 split_eq
      -- each of the four reads succeeded
      simp only [Option.bind_eq_bind, Option.bind_eq_some_iff, Option.pure_def, Option.some.injEq] at parsed
      obtain ⟨b0, read0, b1, read1, b2, read2, b3, read3, rfl⟩ := parsed
      refine ⟨⟨#[p0, p1, p2, p3], rfl⟩, ?_, ?_⟩
      · have whole : ['.'].intercalate (s.splitOn '.') = s := List.intercalate_splitOn '.'
        rw [← whole, split_eq]
        rfl
      · intro i
        fin_cases i
        · exact (parseU8_eq_some_iff _ _).mp read0
        · exact (parseU8_eq_some_iff _ _).mp read1
        · exact (parseU8_eq_some_iff _ _).mp read2
        · exact (parseU8_eq_some_iff _ _).mp read3
    · cases parsed
  · rintro ⟨⟨⟨parts⟩, size⟩, rfl, numerals⟩
    match parts, size, numerals with
    | [p0, p1, p2, p3], _, numerals =>
      -- no numeral holds a dot, so splitting finds the four parts again
      have noDot : ∀ part ∈ [p0, p1, p2, p3], '.' ∉ part := by
        simp only [List.mem_cons, List.not_mem_nil, or_false]
        rintro part (rfl | rfl | rfl | rfl)
        · exact dot_not_mem_numeral (numerals 0)
        · exact dot_not_mem_numeral (numerals 1)
        · exact dot_not_mem_numeral (numerals 2)
        · exact dot_not_mem_numeral (numerals 3)
      unfold parseIpAddr
      rw [show (Vector.mk (Array.mk [p0, p1, p2, p3]) _).toList = [p0, p1, p2, p3] from rfl,
        List.splitOn_intercalate '.' noDot (List.cons_ne_nil _ _)]
      dsimp only
      rw [(parseU8_eq_some_iff p0 _).mpr (numerals 0), (parseU8_eq_some_iff p1 _).mpr (numerals 1),
        (parseU8_eq_some_iff p2 _).mpr (numerals 2), (parseU8_eq_some_iff p3 _).mpr (numerals 3)]
      exact congrArg some (IpAddress.eq_of_bytes ip).symm

example : parseIpAddr ['+', '1', '.', '0', '2', '.', '3', '.', '4'] = some ⟨⟨#[1, 2, 3, 4], rfl⟩⟩ := rfl

example : parseIpAddr ['2', '5', '6', '.', '0', '.', '0', '.', '1'] = none := rfl

/-- Every printed address is read back. -/
theorem parseIpAddr_printIpAddr (ip : IpAddress) : parseIpAddr (printIpAddr ip) = some ip := by
  apply (parseIpAddr_eq_some_iff _ ip).mpr
  refine ⟨⟨#[printNum ip.bytes[0].toUInt64, printNum ip.bytes[1].toUInt64,
    printNum ip.bytes[2].toUInt64, printNum ip.bytes[3].toUInt64], rfl⟩, printIpAddr_eq_intercalate ip, ?_⟩
  intro i
  fin_cases i <;> exact numeral_printNum _

/-- The shell's address text: every address it prints is read back, and what
it reads is exactly four numerals joined by dots, each an optional `+` and
decimal digits, leading zeros allowed, of the byte stored from it. -/
theorem ip_addr_print_parse :
    (∀ ip, parseIpAddr (printIpAddr ip) = some ip) ∧
      ∀ s ip, parseIpAddr s = some ip ↔
        ∃ parts : Vector (List Char) 4, s = ['.'].intercalate parts.toList ∧
          ∀ i : Fin 4, Numeral parts[i] ip.bytes[i].toNat :=
  ⟨parseIpAddr_printIpAddr, parseIpAddr_eq_some_iff⟩

end OspabOs.Shell
