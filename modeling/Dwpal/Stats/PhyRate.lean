import Dwpal.Lib.Reads

/-! `parse_ies` and `calculate_phy_rate` of `stats.c`, which find the largest rate that an access
point announces in the information elements of its beacons. -/

namespace Dwpal.Stats

open Stores

/-- `enum hw_band`. -/
inductive HwBand where
  | ghz52
  | ghz24
  | both
  | none
deriving DecidableEq

/-- `enum phy_type`. -/
inductive PhyMode where
  | ht
  | vht
  | he
deriving DecidableEq

/-! The identifiers of the elements. -/

def wlanEidSuppRates : UInt8 := 1

def wlanEidExtSuppRates : UInt8 := 50

def wlanEidHtCap : UInt8 := 45

def wlanEidVhtCap : UInt8 := 191

def wlanEidExtension : UInt8 := 255

def wlanEidExtHeCapabilities : UInt8 := 35

/-- `MAX_NUM_SUPPORTED_RATES`. -/
def maxNumSupportedRates : Nat := 32

/-! The sizes of the packed structures. -/

def sizeofHtCap : Nat := 26

def sizeofVhtCap : Nat := 12

def sizeofHeCapElem : Nat := 17

def sizeofHeMcsNssSupp : Nat := 12

/-! ### The elements -/

/-- What `parse_ies` returns: the stores to `supp_rates`, and the pointers as positions in `ie`. -/
structure ParsedIes where
  suppRatesLen : Nat
  stores : List (Store UInt8)
  htCap : Option Nat
  vhtCap : Option Nat
  heCap : Option Nat

/-- The loop of `parse_ies` with an element at `ie` of which the length byte is `len`; whether it
returns. -/
def parseElement (mem : Memory UInt8) (ie len : Nat) (out : ParsedIes) :
    Reads (ParsedIes × Bool) := do
  let id ← readAt mem ie
  if id = wlanEidSuppRates ∨ id = wlanEidExtSuppRates then
    let remainLen := maxNumSupportedRates - out.suppRatesLen
    let n := if remainLen > len then len else remainLen
    if n > 0 then
      let bytes ← readBytes mem (ie + 2) n
      pure ({ out with
        stores := out.stores ++ [⟨out.suppRatesLen, bytes⟩], suppRatesLen := n }, false)
    else pure (out, false)
  else if id = wlanEidHtCap ∧ len = sizeofHtCap then
    pure ({ out with htCap := some (ie + 2) }, false)
  else if id = wlanEidVhtCap ∧ len = sizeofVhtCap then
    pure ({ out with vhtCap := some (ie + 2) }, false)
  else if id = wlanEidExtension then
    let ext ← readAt mem (ie + 2)
    if ext = wlanEidExtHeCapabilities ∧ len ≥ sizeofHeCapElem + sizeofHeMcsNssSupp / 3 + 1 then
      pure ({ out with heCap := some (ie + 3) }, true)
    else pure (out, false)
  else pure (out, false)

/-- The loop of `parse_ies`. There is no result where it does not end within `fuel` rounds. -/
def parseIesLoop (mem : Memory UInt8) : (fuel : Nat) → (ie : Nat) → (ielen : Int) → ParsedIes →
    Reads (Option ParsedIes)
  | 0, _, _, _ => pure none
  | fuel + 1, ie, ielen, out =>
    if 2 ≤ ielen then do
      let len ← readAt mem (ie + 1)
      if (len.toNat : Int) ≤ ielen then
        let next ← parseElement mem ie len.toNat out
        if next.2 then pure (some next.1)
        else parseIesLoop mem fuel (ie + (len.toNat + 2)) (ielen - (len.toNat + 2)) next.1
      else pure (some out)
    else pure (some out)

/-- `parse_ies` on the elements at the beginning of a memory. -/
def parseIes (fuel : Nat) (mem : Memory UInt8) (ielen : Int) : Reads (Option ParsedIes) :=
  parseIesLoop mem fuel 0 ielen ⟨0, [], none, none, none⟩

/-! ### The rates -/

/-- `BITRATE_INVALID`. -/
def bitrateInvalid : Nat := 0

/-- `BITRATE_MCS32`. -/
def bitrateMcs32 : Nat := 32

def bitrates11n : List Nat :=
  [65, 72, 135, 150,
   130, 144, 270, 300,
   195, 217, 405, 450,
   260, 289, 540, 600,
   390, 433, 810, 900,
   520, 578, 1080, 1200,
   585, 650, 1215, 1350,
   650, 722, 1350, 1500]

def bitrates11nMcs32 : List Nat := [bitrateInvalid, bitrateInvalid, 60, 67]

def bitrates11ac : List Nat :=
  [65, 72, 135, 150, 293, 325, 585, 650,
   130, 144, 270, 300, 585, 650, 1170, 1300,
   195, 217, 405, 450, 878, 975, 1755, 1950,
   260, 289, 540, 600, 1170, 1300, 2340, 2600,
   390, 433, 810, 900, 1755, 1950, 3510, 3900,
   520, 578, 1080, 1200, 2340, 2600, 4680, 5200,
   585, 650, 1215, 1350, 2633, 2925, 5265, 5850,
   650, 722, 1350, 1500, 2925, 3250, 5850, 6500,
   780, 867, 1620, 1800, 3510, 3900, 7020, 7800,
   bitrateInvalid, bitrateInvalid, 1800, 2000, 3900, 4333, 7800, 8667]

def bitrates11ax : List Nat :=
  [86, 81, 73, 172, 163, 146, 360, 340, 306, 721, 681, 613,
   172, 163, 146, 344, 325, 293, 721, 681, 613, 1441, 1361, 1225,
   258, 244, 219, 516, 488, 439, 1081, 1021, 919, 2162, 2042, 1838,
   344, 325, 293, 688, 650, 585, 1441, 1361, 1225, 2882, 2722, 2450,
   516, 488, 439, 1032, 975, 878, 2162, 2042, 1838, 4324, 4083, 3675,
   688, 650, 585, 1376, 1300, 1170, 2882, 2722, 2450, 5765, 5444, 4900,
   774, 731, 658, 1549, 1463, 1316, 3243, 3063, 2756, 6485, 6125, 5513,
   860, 813, 731, 1721, 1625, 1463, 3603, 3403, 3063, 7206, 6806, 6125,
   1032, 975, 878, 2065, 1950, 1755, 4324, 4083, 3675, 8647, 8167, 7350,
   1147, 1083, 975, 2294, 2167, 1950, 4804, 4537, 4083, 9607, 9074, 8166,
   1290, 1219, 1097, 2581, 2438, 2194, 5404, 5104, 4594, 10809, 10208, 9188,
   1434, 1354, 1219, 2868, 2708, 2438, 6004, 5671, 5104, 12010, 11342, 10208]

/-- `is_valid_vht_rate_params`. -/
def isValidVhtRateParams (cbw mcs nss : Nat) : Bool :=
  if (nss ≠ 3 ∧ nss ≠ 6) ∧ cbw = 0 ∧ mcs = 9 ∨ nss = 3 ∧ cbw = 2 ∧ mcs = 6 ∨
      nss = 7 ∧ cbw = 2 ∧ mcs = 6 ∨ nss = 6 ∧ cbw = 2 ∧ mcs = 9 ∨ nss = 3 ∧ cbw = 3 ∧ mcs = 9 then
    false
  else true

/-- `_hw_rate_params_to_rate`. -/
def hwRateParamsToRate (mode : PhyMode) (cbw scp mcs nss : Nat) : Nat :=
  match mode with
  | .ht =>
    if cbw < 2 ∧ mcs < 33 ∧ nss ≤ 4 then
      if mcs = bitrateMcs32 then bitrates11nMcs32.getD (scp ||| (cbw <<< 1)) bitrateInvalid
      else if mcs ≤ 7 then bitrates11n.getD (scp ||| (cbw <<< 1) ||| (mcs <<< 2)) bitrateInvalid
      else bitrateInvalid
    else bitrateInvalid
  | .vht =>
    if mcs < 10 ∧ nss ≤ 8 ∧ nss ≥ 1 then
      if isValidVhtRateParams cbw mcs nss then
        bitrates11ac.getD (scp ||| (cbw <<< 1) ||| (mcs <<< 3)) bitrateInvalid
      else bitrateInvalid
    else bitrateInvalid
  | .he =>
    if scp < 6 ∧ mcs < 12 ∧ nss > 0 ∧ nss ≤ 8 then
      bitrates11ax.getD (scp + 3 * (cbw + 4 * mcs)) bitrateInvalid
    else bitrateInvalid

/-- A `__le16`. -/
def le16 (mem : Memory UInt8) (a : Nat) : Reads Nat := do
  let lo ← readAt mem a
  let hi ← readAt mem (a + 1)
  pure (lo.toNat + 256 * hi.toNat)

/-- A `__le32`. -/
def le32 (mem : Memory UInt8) (a : Nat) : Reads Nat := do
  let lo ← le16 mem a
  let hi ← le16 mem (a + 2)
  pure (lo + 65536 * hi)

/-- The largest of the rates that `parse_ies` stored, if the first one is not 0. -/
def maxNonHtRate (rates : Memory UInt8) : Nat :=
  if (rates 0).toNat > 0 then
    (List.range maxNumSupportedRates).foldl
      (fun suppRate i => max suppRate ((rates i).toNat &&& 0x7f)) 0 * 10 / 2
  else 0

/-- The loop over `y` of `calculate_phy_rate`, from `y - 1` down. -/
def highestMcs (rxMask i : Nat) : (y : Nat) → (htMcs : Nat) → Nat
  | 0, htMcs => htMcs
  | y + 1, htMcs => if (rxMask >>> y) &&& 1 ≠ 0 then y + i * 8 else highestMcs rxMask i y htMcs

/-- The loop over `i` of `calculate_phy_rate`, from `i - 1` down: `ht_nss` and `ht_mcs`. -/
def htStreams (mem : Memory UInt8) (htCapIe : Nat) : (i : Nat) → (htNss htMcs : Nat) →
    Reads (Nat × Nat)
  | 0, htNss, htMcs => pure (htNss, htMcs)
  | i + 1, htNss, htMcs => do
    let rxMask ← readAt mem (htCapIe + 3 + i)
    if rxMask ≠ 0 then pure (i + 1, highestMcs rxMask.toNat i 8 htMcs)
    else htStreams mem htCapIe i htNss htMcs

/-- `ht_bw` and `ht_scp`. -/
def htWidth (htCap : Nat) : Nat × Nat :=
  if htCap &&& 0x0002 ≠ 0 ∧ htCap &&& 0x4000 = 0 then (1, if htCap &&& 0x0040 ≠ 0 then 1 else 0)
  else (0, if htCap &&& 0x0020 ≠ 0 then 1 else 0)

/-- The HT part of `calculate_phy_rate`: `max_rate`, `ht_bw` and `ht_scp` after it. -/
def maxHtRate (mem : Memory UInt8) (htCapIe maxRate : Nat) : Reads (Nat × Nat × Nat) := do
  let htCap ← le16 mem htCapIe
  let width := htWidth htCap
  let mask ← readAt mem (htCapIe + 3 + 4)
  let mcs32 := mask &&& 1 ≠ 0 ∧ width.1 = 1
  let found ← htStreams mem htCapIe 4 (if mcs32 then 1 else 0) (if mcs32 then bitrateMcs32 else 0)
  let maxRate :=
    if mcs32 then max maxRate (hwRateParamsToRate .ht width.1 width.2 bitrateMcs32 1 * 1)
      else maxRate
  let mcs := if found.2 = bitrateMcs32 then bitrateMcs32 else found.2 &&& 7
  pure (max maxRate (hwRateParamsToRate .ht width.1 width.2 mcs 1 * found.1), width)

/-- The loop over the streams of a map with two bits for each, from `nss` streams down: how many,
and the two bits. -/
def mapStreams (mcsMap : Nat) : (nss : Nat) → (mcs : Nat) → Nat × Nat
  | 0, mcs => (0, mcs)
  | nss + 1, _ =>
    if (mcsMap >>> (2 * nss)) &&& 3 ≠ 3 then (nss + 1, (mcsMap >>> (2 * nss)) &&& 3)
    else mapStreams mcsMap nss ((mcsMap >>> (2 * nss)) &&& 3)

/-- `vht_bw` and `vht_scp`. -/
def vhtWidth (band : HwBand) (vhtCap : Nat) (ht : Nat × Nat) : Nat × Nat :=
  if band = .ghz24 then ht
  else if vhtCap &&& 0xc = 0x4 then (3, if vhtCap &&& 0x40 ≠ 0 then 1 else 0)
  else (2, if vhtCap &&& 0x20 ≠ 0 then 1 else 0)

/-- The loop over `mcs_1ss`, from `6 + n` down to 7: the rate that it finds. -/
def vhtRateLoop (vhtBw vhtScp : Nat) : (n : Nat) → Nat
  | 0 => bitrateInvalid
  | n + 1 =>
    if hwRateParamsToRate .vht vhtBw vhtScp (n + 7) 1 ≠ bitrateInvalid then
      hwRateParamsToRate .vht vhtBw vhtScp (n + 7) 1
    else vhtRateLoop vhtBw vhtScp n

/-- The VHT part of `calculate_phy_rate`: `max_rate` after it. -/
def maxVhtRate (mem : Memory UInt8) (band : HwBand) (vhtCapIe : Nat) (ht : Nat × Nat)
    (maxRate : Nat) : Reads Nat := do
  let mcsMap ← le16 mem (vhtCapIe + 4)
  let found := mapStreams mcsMap 8 0
  if found.2 ≠ 3 then
    let vhtCap ← le32 mem vhtCapIe
    let width := vhtWidth band vhtCap ht
    pure (max maxRate (vhtRateLoop width.1 width.2 (found.2 + 1) * found.1))
  else pure maxRate

/-- `he_bw`. -/
def heWidth (band : HwBand) (phyCap : UInt8) : Nat :=
  if band = .ghz24 then if phyCap &&& 0x02 ≠ 0 then 1 else 0
  else if phyCap &&& 0x08 ≠ 0 ∨ phyCap &&& 0x10 ≠ 0 then 3
  else if phyCap &&& 0x04 ≠ 0 then 2
  else 0

/-- The HE part of `calculate_phy_rate`: `max_rate` after it. -/
def maxHeRate (mem : Memory UInt8) (band : HwBand) (heCapIe maxRate : Nat) : Reads Nat := do
  let phyCap ← readAt mem (heCapIe + 6)
  let heBw := heWidth band phyCap
  -- rx_mcs_160, or else rx_mcs_80
  let mcsMap ← le16 mem (heCapIe + if heBw = 3 then 21 else 17)
  let found := mapStreams mcsMap 8 0
  if found.2 ≠ 3 then
    pure (max maxRate (hwRateParamsToRate .he heBw 0 (7 + found.2 * 2) 1 * found.1))
  else pure maxRate

/-- `calculate_phy_rate`: the rate that it prints, in tenths of a megabit per second. -/
def calculatePhyRate (fuel : Nat) (mem : Memory UInt8) (band : HwBand) (ielen : Int) :
    Reads (Option Nat) := do
  match ← parseIes fuel mem ielen with
  | none => pure none
  | some out =>
    let maxRate := maxNonHtRate (runAll out.stores fun _ => 0)
    let ht ← match out.htCap with
      | none => pure (maxRate, 0, 0)
      | some htCapIe => maxHtRate mem htCapIe maxRate
    let maxRate ← match out.vhtCap with
      | none => pure ht.1
      | some vhtCapIe => maxVhtRate mem band vhtCapIe ht.2 ht.1
    let maxRate ← match out.heCap with
      | none => pure maxRate
      | some heCapIe => maxHeRate mem band heCapIe maxRate
    pure (some maxRate)

end Dwpal.Stats
