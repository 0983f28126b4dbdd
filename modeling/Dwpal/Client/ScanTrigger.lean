import Dwpal.Lib.Bytes
import Dwpal.Lib.CNumber

/-! The two builders of a scan command: `scanParamHandle` of `dwpal.c` and
`dwpald_ieee80211_scan_trigger` of the client. The messages have room for all that is put into
them. -/

namespace Dwpal.Client

def numOfFrequencies : Nat := 32
def scanParamStringLength : Nat := 64
def numOfSsids : Nat := 16
def ssidStringLength : Nat := 32

/-- `ScanParams`, which is `scan_params` of the client. -/
structure ScanParams where
  freq : Fin numOfFrequencies → Int32
  ies : Buffer scanParamStringLength
  meshid : Buffer scanParamStringLength
  lowpri : Bool
  flush : Bool
  apForce : Bool
  ssid : Fin numOfSsids → Buffer ssidStringLength
  passive : Bool

/-- The attributes `NL80211_ATTR_SCAN_FLAGS`, `NL80211_ATTR_IE`, `NL80211_ATTR_SCAN_SSIDS` and
`NL80211_ATTR_SCAN_FREQUENCIES`; what is nested has its own types. -/
inductive ScanAttr where
  | scanFlags (flags : UInt32)
  | ie (bytes : List UInt8)
  | scanSsids (ssids : List (Nat × List UInt8))
  | scanFrequencies (frequencies : List (Nat × Int32))
deriving DecidableEq

/-- Which allocations of a builder succeed. -/
structure ScanAllocs where
  hexStrCopy : Bool
  ies : Bool
  meshid : Bool
  tmpies : Bool
  ssids : Bool
  frequencies : Bool

/-- The first byte of a string is not its end. -/
def present {n : Nat} (buf : Buffer n) : Bool := buf.bytes.headD 0 != 0

/-- `NL80211_SCAN_FLAG_LOW_PRIORITY`, `NL80211_SCAN_FLAG_FLUSH` and `NL80211_SCAN_FLAG_AP`. -/
def scanFlagLowPriority : UInt32 := 1
def scanFlagFlush : UInt32 := 2
def scanFlagAp : UInt32 := 4

/-- The flags of a command, in both builders. -/
def scanFlags (params : ScanParams) : UInt32 :=
  (if params.lowpri then scanFlagLowPriority else 0) |||
    (if params.flush then scanFlagFlush else 0) ||| (if params.apForce then scanFlagAp else 0)

/-- The attribute of the flags, which is left out if there are none. -/
def flagsAttr (params : ScanParams) : Option UInt32 :=
  if scanFlags params ≠ 0 then some (scanFlags params) else none

/-- The byte of one element of `ies`; `strtoul` has the width of `unsigned long`, and its value is
kept in an `int`. -/
def hexByte (longBits : Nat) (element : List UInt8) : Option UInt8 :=
  let (value, rest) := CNumber.strtoul longBits 16 element
  let temp := (Int32.ofNat value).toInt
  if rest ≠ [] ∨ temp < 0 ∨ temp > 255 then none else some (UInt8.ofNat temp.toNat)

/-- The elements of a string, between colons. -/
def hexElements (text : List UInt8) : List (List UInt8) := text.splitOn 58

/-- `parse_hex` of `dwpal.c`, into a buffer for half as many bytes as the string has and two. It
passes over the elements `xx` and `--`. Without a terminator it reads behind the array, and more
elements are written behind the buffer: neither has a result. -/
def parseHexDwpal (longBits : Nat) (ies : Buffer scanParamStringLength) : Option (List UInt8) :=
  if 0 ∉ ies.bytes then none
  else
    let text := cstr ies.bytes
    if text.length / 2 + 2 < (hexElements text).length then none
    else
      (hexElements text).mapM fun element =>
        if element = ascii "xx" ∨ element = ascii "--" then some 0 else hexByte longBits element

/-- `parse_hex` of the client, into a buffer of the same size. -/
def parseHexClient (longBits : Nat) (ies : Buffer scanParamStringLength) : Option (List UInt8) :=
  let text := cstr ies.bytes
  if text.length / 2 + 2 < (hexElements text).length then none
  else (hexElements text).mapM (hexByte longBits)

/-- The loop over the SSIDs: it stops at an empty one. The type of an attribute is the next number
from `idx` on. -/
def putSsids (idx : Nat) : List (Buffer ssidStringLength) → List (Nat × List UInt8)
  | [] => []
  | ssid :: ssids => if present ssid then (idx, cstr ssid.bytes) :: putSsids (idx + 1) ssids else []

/-- The loop over the frequencies: it stops at one that is not positive. -/
def putFrequencies (idx : Nat) : List Int32 → List (Nat × Int32)
  | [] => []
  | freq :: freqs => if 0 < freq then (idx, freq) :: putFrequencies (idx + 1) freqs else []

/-- The mesh element's id. -/
def meshElementId : UInt8 := 114

/-- The attribute of the elements that are there, one behind the other. -/
def ieAttr (tmpies : Bool) (ies meshid : Option (List UInt8)) : Option (Option (List UInt8)) :=
  if ies = none ∧ meshid = none then some none
  else if tmpies then some (some (ies.getD [] ++ meshid.getD []))
  else none

/-- The attribute of the SSIDs of a scan that is not passive: an empty one if there are none. -/
def ssidsAttr (params : ScanParams) (ssids : List (Nat × List UInt8)) :
    Option (List (Nat × List UInt8)) :=
  if params.passive then none else some (if ssids = [] then [(1, [])] else ssids)

/-- The attribute of the frequencies, if there are any. -/
def frequenciesAttr (freqs : List (Nat × Int32)) : Option (List (Nat × Int32)) :=
  if freqs = [] then none else some freqs

/-- `ies` of `scanParamHandle`. -/
def dwpalIes (longBits : Nat) (allocs : ScanAllocs) (params : ScanParams) :
    Option (Option (List UInt8)) :=
  if present params.ies = false then some none
  else if allocs.ies then (parseHexDwpal longBits params.ies).map some
  else none

/-- `meshid` of `scanParamHandle`. -/
def dwpalMeshid (allocs : ScanAllocs) (params : ScanParams) : Option (Option (List UInt8)) :=
  let meshid := cstr params.meshid.bytes
  if present params.meshid = false then some none
  else if allocs.meshid then some (some (meshElementId :: UInt8.ofNat meshid.length :: meshid))
  else none

/-- The attributes that `scanParamHandle` puts into the message, if it succeeds. The numbers of the
frequencies go on behind those of the SSIDs. -/
def scanParamHandle (longBits : Nat) (allocs : ScanAllocs) (params : ScanParams) :
    Option (List ScanAttr) :=
  (dwpalIes longBits allocs params).bind fun ies =>
    (dwpalMeshid allocs params).bind fun meshid =>
      (ieAttr allocs.tmpies ies meshid).bind fun ie =>
        let ssids := putSsids 0 (List.ofFn params.ssid)
        let freqs := putFrequencies ssids.length (List.ofFn params.freq)
        if allocs.ssids = false ∨ allocs.frequencies = false then none
        else
          some ((ie.map ScanAttr.ie).toList ++ ((ssidsAttr params ssids).map .scanSsids).toList ++
            ((frequenciesAttr freqs).map .scanFrequencies).toList ++
            ((flagsAttr params).map .scanFlags).toList)

/-- `ies` of `dwpald_ieee80211_scan_trigger`. -/
def clientIes (longBits : Nat) (allocs : ScanAllocs) (params : ScanParams) :
    Option (Option (List UInt8)) :=
  if present params.ies = false then some none
  else if allocs.hexStrCopy ∧ allocs.ies then (parseHexClient longBits params.ies).map some
  else none

/-- `meshid` of `dwpald_ieee80211_scan_trigger`, as far as it is copied: `meshid_len` is the length
of the mesh id without the two bytes before it. The copy into `meshid_len - 2` bytes has no room,
and leaves zeros. -/
def clientMeshid (allocs : ScanAllocs) (params : ScanParams) : Option (Option (List UInt8)) :=
  let len := (cstr params.meshid.bytes).length
  if present params.meshid = false then some none
  else if allocs.meshid then
    some (some ((meshElementId :: UInt8.ofNat len :: List.replicate len 0).take len))
  else none

/-- The attributes that `dwpald_ieee80211_scan_trigger` puts into the message before it sends it.
The message is there. -/
def dwpaldIeee80211ScanTrigger (longBits : Nat) (allocs : ScanAllocs) (params : ScanParams) :
    Option (List ScanAttr) :=
  (clientIes longBits allocs params).bind fun ies =>
    (clientMeshid allocs params).bind fun meshid =>
      (ieAttr allocs.tmpies ies meshid).bind fun ie =>
        let ssids := putSsids 0 (List.ofFn params.ssid)
        let freqs := putFrequencies 0 (List.ofFn params.freq)
        if (ssids ≠ [] ∨ params.passive = false) ∧ allocs.ssids = false then none
        else if freqs ≠ [] ∧ allocs.frequencies = false then none
        else
          some (((flagsAttr params).map ScanAttr.scanFlags).toList ++ (ie.map .ie).toList ++
            ((ssidsAttr params ssids).map .scanSsids).toList ++
            ((frequenciesAttr freqs).map .scanFrequencies).toList)

/-- What the attributes of a command say. -/
structure ScanContent where
  flags : Option UInt32
  ie : Option (List UInt8)
  ssids : Option (List (List UInt8))
  frequencies : Option (List Int32)

def ScanAttr.flags? : ScanAttr → Option UInt32
  | .scanFlags flags => some flags
  | _ => none

def ScanAttr.ie? : ScanAttr → Option (List UInt8)
  | .ie bytes => some bytes
  | _ => none

def ScanAttr.ssids? : ScanAttr → Option (List (List UInt8))
  | .scanSsids ssids => some (ssids.map Prod.snd)
  | _ => none

def ScanAttr.frequencies? : ScanAttr → Option (List Int32)
  | .scanFrequencies frequencies => some (frequencies.map Prod.snd)
  | _ => none

/-- What a message says, whatever the order of its attributes and the numbers in the nested ones. -/
def scanContent (attrs : List ScanAttr) : ScanContent where
  flags := attrs.findSome? ScanAttr.flags?
  ie := attrs.findSome? ScanAttr.ie?
  ssids := attrs.findSome? ScanAttr.ssids?
  frequencies := attrs.findSome? ScanAttr.frequencies?

/-- The element of a mesh id: its id, its length, the mesh id; nothing without one. -/
def meshElement (meshid : Buffer scanParamStringLength) : List UInt8 :=
  if present meshid then
    meshElementId :: UInt8.ofNat (cstr meshid.bytes).length :: cstr meshid.bytes
  else []

/-- The bytes that `ies` stands for; nothing without them. -/
def decodedIes (longBits : Nat) (ies : Buffer scanParamStringLength) : Option (List UInt8) :=
  if present ies then (hexElements (cstr ies.bytes)).mapM (hexByte longBits) else some []

section Builders

variable {longBits : Nat} {allocs : ScanAllocs} {params : ScanParams} {attrs : List ScanAttr}

theorem map_snd_putFrequencies (idx : Nat) (freqs : List Int32) :
    (putFrequencies idx freqs).map Prod.snd = freqs.takeWhile fun freq => 0 < freq := by
  induction freqs generalizing idx with
  | nil => rfl
  | cons freq freqs ih =>
    rw [putFrequencies, List.takeWhile_cons]
    by_cases hfreq : 0 < freq
    · rw [if_pos hfreq, if_pos (by simpa using hfreq), List.map_cons, ih]
    · rw [if_neg hfreq, if_neg (by simpa using hfreq)]
      rfl

/-- The numbers of the frequencies do not change what a command says. -/
theorem frequenciesAttr_values (idx idx' : Nat) (freqs : List Int32) :
    (frequenciesAttr (putFrequencies idx freqs)).map (List.map Prod.snd) =
      (frequenciesAttr (putFrequencies idx' freqs)).map (List.map Prod.snd) := by
  have hvalues := (map_snd_putFrequencies idx freqs).trans (map_snd_putFrequencies idx' freqs).symm
  have hempty : putFrequencies idx freqs = [] ↔ putFrequencies idx' freqs = [] := by
    rw [← List.map_eq_nil_iff (f := Prod.snd), hvalues, List.map_eq_nil_iff]
  rw [frequenciesAttr, frequenciesAttr]
  by_cases hnil : putFrequencies idx freqs = []
  · rw [if_pos hnil, if_pos (hempty.mp hnil)]
  · rw [if_neg hnil, if_neg (mt hempty.mpr hnil), Option.map_some, Option.map_some, hvalues]

section Order

variable (flags : Option UInt32) (ie : Option (List UInt8))
  (ssids : Option (List (Nat × List UInt8))) (freqs : Option (List (Nat × Int32)))

/-- What a command says whose attributes come in the order of `dwpal.c`. -/
theorem scanContent_dwpal :
    scanContent ((ie.map ScanAttr.ie).toList ++ (ssids.map .scanSsids).toList ++
        (freqs.map .scanFrequencies).toList ++ (flags.map .scanFlags).toList) =
      ⟨flags, ie, ssids.map (List.map Prod.snd), freqs.map (List.map Prod.snd)⟩ := by
  cases flags <;> cases ie <;> cases ssids <;> cases freqs <;> rfl

/-- What a command says whose attributes come in the order of the client. -/
theorem scanContent_client :
    scanContent ((flags.map ScanAttr.scanFlags).toList ++ (ie.map .ie).toList ++
        (ssids.map .scanSsids).toList ++ (freqs.map .scanFrequencies).toList) =
      ⟨flags, ie, ssids.map (List.map Prod.snd), freqs.map (List.map Prod.snd)⟩ := by
  cases flags <;> cases ie <;> cases ssids <;> cases freqs <;> rfl

end Order

theorem hexByte_ignored {element : List UInt8} (h : element = ascii "xx" ∨ element = ascii "--") :
    hexByte longBits element = none := by
  have hscan : ∀ text, text = ascii "xx" ∨ text = ascii "--" → CNumber.scan 16 text = none := by
    rintro text (rfl | rfl) <;> decide
  have hne : element ≠ [] := by
    rintro rfl
    rcases h with h | h <;> cases h
  rw [hexByte, CNumber.strtoul, hscan element h]
  exact if_pos (.inl hne)

/-- What both parsers read from a string, they read alike. -/
theorem parseHex_agree {ies : Buffer scanParamStringLength} {bytes bytes' : List UInt8}
    (hdwpal : parseHexDwpal longBits ies = some bytes)
    (hclient : parseHexClient longBits ies = some bytes') : bytes = bytes' := by
  simp only [parseHexDwpal, parseHexClient] at hdwpal hclient
  split_ifs at hdwpal hclient
  generalize hexElements (cstr ies.bytes) = elements at hdwpal hclient
  induction elements generalizing bytes bytes' with
  | nil =>
    cases hdwpal
    cases hclient
    rfl
  | cons element elements ih =>
    rw [List.mapM_cons] at hdwpal hclient
    obtain ⟨byte, hbyte, hdwpal⟩ := Option.bind_eq_some_iff.mp hdwpal
    obtain ⟨rest, hrest, hdwpal⟩ := Option.bind_eq_some_iff.mp hdwpal
    obtain ⟨byte', hbyte', hclient⟩ := Option.bind_eq_some_iff.mp hclient
    obtain ⟨rest', hrest', hclient⟩ := Option.bind_eq_some_iff.mp hclient
    have hknown : ¬ (element = ascii "xx" ∨ element = ascii "--") := by
      intro hignored
      rw [hexByte_ignored hignored] at hbyte'
      cases hbyte'
    rw [if_neg hknown, hbyte'] at hbyte
    cases hbyte
    cases hdwpal
    cases hclient
    rw [ih hrest hrest']

/-- What the client takes from `ies` is what they stand for. -/
theorem clientIes_decoded {ies : Option (List UInt8)}
    (h : clientIes longBits allocs params = some ies) :
    decodedIes longBits params.ies = some (ies.getD []) ∧
      (ies = none ↔ present params.ies = false) := by
  rw [clientIes] at h
  rw [decodedIes]
  split_ifs at h with habsent halloc
  · cases h
    rw [habsent]
    exact ⟨rfl, iff_of_true rfl rfl⟩
  · obtain ⟨bytes, hbytes, rfl⟩ := Option.map_eq_some_iff.mp h
    simp only [parseHexClient] at hbytes
    split_ifs at hbytes
    rw [if_pos (by simpa using habsent)]
    exact ⟨hbytes, iff_of_false nofun habsent⟩

/-- What both builders take from `ies` is the same. -/
theorem ies_agree {ies ies' : Option (List UInt8)} {allocs' : ScanAllocs}
    (hdwpal : dwpalIes longBits allocs params = some ies)
    (hclient : clientIes longBits allocs' params = some ies') : ies = ies' := by
  rw [dwpalIes] at hdwpal
  rw [clientIes] at hclient
  split_ifs at hdwpal hclient
  · cases hdwpal
    cases hclient
    rfl
  · obtain ⟨bytes, hbytes, rfl⟩ := Option.map_eq_some_iff.mp hdwpal
    obtain ⟨bytes', hbytes', rfl⟩ := Option.map_eq_some_iff.mp hclient
    rw [parseHex_agree hbytes hbytes']

theorem ieAttr_some {tmpies : Bool} {ies meshid ie : Option (List UInt8)}
    (h : ieAttr tmpies ies meshid = some ie) :
    ie.getD [] = ies.getD [] ++ meshid.getD [] ∧ (ie = none ↔ ies = none ∧ meshid = none) := by
  rw [ieAttr] at h
  split_ifs at h with hnone
  · cases h
    rw [hnone.1, hnone.2]
    exact ⟨rfl, by simp⟩
  · cases h
    exact ⟨rfl, iff_of_false nofun hnone⟩

theorem dwpalMeshid_some {meshid : Option (List UInt8)}
    (h : dwpalMeshid allocs params = some meshid) :
    meshid.getD [] = meshElement params.meshid ∧
      (meshid = none ↔ present params.meshid = false) := by
  rw [dwpalMeshid] at h
  rw [meshElement]
  split_ifs at h with habsent
  · cases h
    rw [habsent]
    exact ⟨rfl, iff_of_true rfl rfl⟩
  · cases h
    rw [if_pos (by simpa using habsent)]
    exact ⟨rfl, iff_of_false nofun habsent⟩

theorem clientMeshid_some {meshid : Option (List UInt8)}
    (h : clientMeshid allocs params = some meshid) :
    (meshid.getD []).length ≤ (cstr params.meshid.bytes).length ∧
      (meshid = none ↔ present params.meshid = false) := by
  rw [clientMeshid] at h
  split_ifs at h with habsent
  · cases h
    exact ⟨Nat.zero_le _, iff_of_true rfl habsent⟩
  · cases h
    exact ⟨List.length_take_le .., iff_of_false nofun habsent⟩

/-- What a command says that has this attribute of elements. -/
def contentOf (params : ScanParams) (ie : Option (List UInt8)) : ScanContent where
  flags := flagsAttr params
  ie := ie
  ssids := (ssidsAttr params (putSsids 0 (List.ofFn params.ssid))).map (List.map Prod.snd)
  frequencies := (frequenciesAttr (putFrequencies 0 (List.ofFn params.freq))).map
    (List.map Prod.snd)

/-- The command that `dwpal.c` builds. -/
theorem scanParamHandle_some (h : scanParamHandle longBits allocs params = some attrs) :
    ∃ ies meshid ie, dwpalIes longBits allocs params = some ies ∧
      dwpalMeshid allocs params = some meshid ∧ ieAttr allocs.tmpies ies meshid = some ie ∧
      scanContent attrs = contentOf params ie := by
  obtain ⟨ies, hies, hrest⟩ := Option.bind_eq_some_iff.mp h
  obtain ⟨meshid, hmeshid, hrest'⟩ := Option.bind_eq_some_iff.mp hrest
  obtain ⟨ie, hie, hbuilt⟩ := Option.bind_eq_some_iff.mp hrest'
  dsimp only at hbuilt
  split_ifs at hbuilt
  refine ⟨ies, meshid, ie, hies, hmeshid, hie, ?_⟩
  rw [← Option.some.inj hbuilt, scanContent_dwpal, frequenciesAttr_values _ 0]
  rfl

/-- The command that the client builds. -/
theorem dwpaldIeee80211ScanTrigger_some
    (h : dwpaldIeee80211ScanTrigger longBits allocs params = some attrs) :
    ∃ ies meshid ie, clientIes longBits allocs params = some ies ∧
      clientMeshid allocs params = some meshid ∧ ieAttr allocs.tmpies ies meshid = some ie ∧
      scanContent attrs = contentOf params ie := by
  obtain ⟨ies, hies, hrest⟩ := Option.bind_eq_some_iff.mp h
  obtain ⟨meshid, hmeshid, hrest'⟩ := Option.bind_eq_some_iff.mp hrest
  obtain ⟨ie, hie, hbuilt⟩ := Option.bind_eq_some_iff.mp hrest'
  dsimp only at hbuilt
  split_ifs at hbuilt
  refine ⟨ies, meshid, ie, hies, hmeshid, hie, ?_⟩
  rw [← Option.some.inj hbuilt, scanContent_client]
  rfl

/-- Of a structure that both builders accept, the two commands say the same, with the elements that
the structure stands for, exactly when it has no mesh id. -/
theorem scanBuilders_agree {allocs' : ScanAllocs} {attrs' : List ScanAttr}
    (hdwpal : scanParamHandle longBits allocs params = some attrs)
    (hclient : dwpaldIeee80211ScanTrigger longBits allocs' params = some attrs') :
    (scanContent attrs' = scanContent attrs ∧ ∃ ies, decodedIes longBits params.ies = some ies ∧
        (scanContent attrs).ie.getD [] = ies ++ meshElement params.meshid) ↔
      present params.meshid = false := by
  obtain ⟨ies, meshid, ie, hies, hmeshid, hie, hcontent⟩ := scanParamHandle_some hdwpal
  obtain ⟨ies', meshid', ie', hies', hmeshid', hie', hcontent'⟩ :=
    dwpaldIeee80211ScanTrigger_some hclient
  cases ies_agree hies hies'
  obtain ⟨hdecoded, -⟩ := clientIes_decoded hies'
  obtain ⟨hmesh, hmeshNone⟩ := dwpalMeshid_some hmeshid
  obtain ⟨hmeshLen, hmeshNone'⟩ := clientMeshid_some hmeshid'
  obtain ⟨hbytes, hieNone⟩ := ieAttr_some hie
  obtain ⟨hbytes', hieNone'⟩ := ieAttr_some hie'
  rw [hcontent, hcontent']
  constructor
  · rintro ⟨hsame, -⟩
    have hie_eq : ie' = ie := congrArg ScanContent.ie hsame
    by_contra hpresent
    have hlen : meshid'.getD [] = meshid.getD [] := by
      refine @List.append_cancel_left _ (ies.getD []) _ _ ?_
      rw [← hbytes, ← hbytes', hie_eq]
    rw [hlen, hmesh, meshElement, if_pos (by simpa using hpresent)] at hmeshLen
    simp only [List.length_cons] at hmeshLen
    omega
  · intro habsent
    have hmeshid_eq : meshid' = meshid := by
      rw [hmeshNone'.mpr habsent, hmeshNone.mpr habsent]
    have hsame : ie' = ie := by
      by_cases hnone : ie = none
      · rw [hnone]
        exact hieNone'.mpr (hmeshid_eq ▸ hieNone.mp hnone)
      · have hnone' : ie' ≠ none := fun h => hnone (hieNone.mpr (hmeshid_eq ▸ hieNone'.mp h))
        obtain ⟨bytes, rfl⟩ := Option.ne_none_iff_exists'.mp hnone
        obtain ⟨bytes', rfl⟩ := Option.ne_none_iff_exists'.mp hnone'
        rw [hmeshid_eq, ← hbytes] at hbytes'
        exact congrArg some hbytes'
    exact ⟨by rw [hsame], ies.getD [], hdecoded, by rw [← hmesh]; exact hbytes⟩

end Builders

/-- A scan for all networks on one channel, with two bytes of elements and this mesh id. -/
def scanChannel (meshid : List UInt8) : ScanParams where
  freq := fun i => if i.val = 0 then 2412 else 0
  ies := (Buffer.fill scanParamStringLength 0).write 0 (ascii "dd:00")
  meshid := (Buffer.fill scanParamStringLength 0).write 0 meshid
  lowpri := false
  flush := true
  apForce := false
  ssid := fun _ => Buffer.fill ssidStringLength 0
  passive := false

def allAllocs : ScanAllocs := ⟨true, true, true, true, true, true⟩

theorem scanBuilders_agree_channel :
    scanContent [.scanFlags 2, .ie [221, 0], .scanSsids [(1, [])], .scanFrequencies [(0, 2412)]] =
      scanContent [.ie [221, 0], .scanSsids [(1, [])], .scanFrequencies [(0, 2412)],
        .scanFlags 2] :=
  ((@scanBuilders_agree 32 allAllocs (scanChannel []) _ allAllocs _ (by decide) (by decide)).mpr
    (by decide)).1

/-- The commands of the two builders for a scan with the mesh id `mesh`. -/
theorem meshScan_differs : ¬ ∀ longBits allocs allocs' params attrs attrs',
    scanParamHandle longBits allocs params = some attrs →
    dwpaldIeee80211ScanTrigger longBits allocs' params = some attrs' →
    scanContent attrs' = scanContent attrs ∧ ∃ ies, decodedIes longBits params.ies = some ies ∧
      (scanContent attrs).ie.getD [] = ies ++ meshElement params.meshid := by
  intro h
  have hsame := (h 32 allAllocs allAllocs (scanChannel (ascii "mesh"))
    [.ie ([221, 0] ++ [114, 4] ++ ascii "mesh"), .scanSsids [(1, [])],
      .scanFrequencies [(0, 2412)], .scanFlags 2]
    [.scanFlags 2, .ie [221, 0, 114, 4, 0, 0], .scanSsids [(1, [])],
      .scanFrequencies [(0, 2412)]] (by decide) (by decide)).1
  exact absurd (congrArg ScanContent.ie hsame) (by decide)

end Dwpal.Client
