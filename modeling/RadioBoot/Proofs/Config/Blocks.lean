import Mathlib.Logic.ExistsUnique
import RadioBoot.Config.Document
import RadioBoot.Config.Provisioned

/-!
# Blocks of a configuration

An application writes a configuration as 21 bytes (`Config.toBlock`), and what stands before and
behind them in its block is not looked at.  A line can be written in one way only
(`line?_eq_some_iff`): its number says the port and the bit of the mask.  Neither can the other
fields, so a block is read as a configuration just when it has these bytes
(`ofBlock?_eq_ok_iff`).  What makes a block unreadable is said over the bytes themselves, one fault
after the other (`ofBlock?_eq_ok_iff_described`).
-/

namespace RadioBoot

namespace Config

/-! ## Masks -/

variable {port mask n : UInt8} {k : Nat}

/-- The mask of one bit has this bit and no other. -/
theorem eq_bit_iff : k < 8 ∧ mask = PipeMap.bit k ↔
    mask.toBitVec.getLsbD k = true ∧ ∀ j, mask.toBitVec.getLsbD j = true → j = k := by
  constructor
  · rintro ⟨hk, rfl⟩
    simp [PipeMap.getLsbD_bit hk, eq_comm]
  · rintro ⟨hset, honly⟩
    have hk : k < 8 := BitVec.lt_of_getLsbD hset
    refine ⟨hk, UInt8.toBitVec_inj.mp (BitVec.eq_of_getLsbD_eq fun j _ ↦ ?_)⟩
    rw [PipeMap.getLsbD_bit hk, Bool.eq_iff_iff, decide_eq_true_iff]
    exact ⟨fun h ↦ (honly j h).symm, fun h ↦ h ▸ hset⟩

theorem onlyBit?_eq_some_iff : onlyBit? mask = some k ↔ k < 8 ∧ mask = PipeMap.bit k := by
  constructor
  · intro h
    have hfilter : (List.range 8).filter mask.toBitVec.getLsbD = [k] := by
      rw [onlyBit?] at h
      split at h
      · rw [← Option.some.inj h]
        assumption
      · exact absurd h (by simp)
    have hmem (j : Nat) : mask.toBitVec.getLsbD j = true ↔ j = k := by
      rw [← @List.mem_singleton _ j, ← hfilter, List.mem_filter, List.mem_range]
      exact ⟨fun hset ↦ ⟨BitVec.lt_of_getLsbD hset, hset⟩, And.right⟩
    exact eq_bit_iff.mpr ⟨(hmem k).mpr rfl, fun j ↦ (hmem j).mp⟩
  · rintro ⟨hk, rfl⟩
    have all : ∀ i : Fin 8, onlyBit? (PipeMap.bit i) = some i := by decide
    exact all ⟨k, hk⟩

/-! ## Lines -/

/-- A port and a mask name a line: just one bit is set, and there are 32 ports. -/
def NamesLine (port mask : UInt8) : Prop :=
  (∃! k, mask.toBitVec.getLsbD k = true) ∧ port.toNat ≤ 31

/-- The number of that line, eight lines to a port. -/
def lineNumber (port mask : UInt8) : UInt8 := .ofNat (8 * port.toNat + mask.toNat.log2)

/-- The port of a line. -/
def portOf (line : UInt8) : UInt8 := .ofNat (line.toNat / 8)

/-- The mask of a line. -/
def maskOf (line : UInt8) : UInt8 := PipeMap.bit (line.toNat % 8)

theorem eq_portOf_iff : port = portOf n ↔ port.toNat = n.toNat / 8 := by
  have hn := n.toNat_lt
  rw [portOf, ← UInt8.toNat_inj, UInt8.toNat_ofNat_of_lt' (by simp only [UInt8.size]; omega)]

/-- What is read as a line is how it is written. -/
theorem line?_eq_some_iff : line? port mask = some n ↔ port = portOf n ∧ mask = maskOf n := by
  have hn := n.toNat_lt
  rw [eq_portOf_iff, maskOf]
  constructor
  · intro h
    rw [line?] at h
    split at h
    · rename_i k hbit
      obtain ⟨hk, rfl⟩ := onlyBit?_eq_some_iff.mp hbit
      split at h
      · rename_i below
        have hline : n.toNat = port.toNat * 8 + k := by
          rw [← Option.some.inj h, UInt8.toNat_ofNat_of_lt' below]
        refine ⟨by omega, ?_⟩
        rw [show n.toNat % 8 = k by omega]
      · exact absurd h (by simp)
    · exact absurd h (by simp)
  · rintro ⟨hport, rfl⟩
    have hline : port.toNat * 8 + n.toNat % 8 = n.toNat := by omega
    rw [line?, onlyBit?_eq_some_iff.mpr ⟨Nat.mod_lt _ (by decide), rfl⟩]
    simp only [hline, hn, if_true, UInt8.ofNat_toNat]

/-- It has the number of its line. -/
theorem lineNumber_eq (n : UInt8) : lineNumber (portOf n) (maskOf n) = n := by
  have hlog : ∀ i : Fin 8, (PipeMap.bit i).toNat.log2 = i := by decide
  have hport : (portOf n).toNat = n.toNat / 8 := eq_portOf_iff.mp rfl
  rw [lineNumber, maskOf, hlog ⟨n.toNat % 8, Nat.mod_lt _ (by decide)⟩, hport, Nat.div_add_mod,
    UInt8.ofNat_toNat]

/-- A port and a mask name a line just when they are how a line is written. -/
theorem namesLine_iff : NamesLine port mask ↔ ∃ n, port = portOf n ∧ mask = maskOf n := by
  constructor
  · rintro ⟨⟨k, hset, honly⟩, hport⟩
    obtain ⟨hk, rfl⟩ := eq_bit_iff.mpr ⟨hset, honly⟩
    have hline : (UInt8.ofNat (8 * port.toNat + k)).toNat = 8 * port.toNat + k :=
      UInt8.toNat_ofNat_of_lt' (by simp only [UInt8.size]; omega)
    refine ⟨.ofNat (8 * port.toNat + k), eq_portOf_iff.mpr (by omega), ?_⟩
    rw [maskOf, hline, show (8 * port.toNat + k) % 8 = k by omega]
  · rintro ⟨n, hport, rfl⟩
    have hn := n.toNat_lt
    have hport := eq_portOf_iff.mp hport
    exact ⟨⟨_, eq_bit_iff.mp ⟨Nat.mod_lt _ (by decide), rfl⟩⟩, by omega⟩

theorem line?_of_namesLine (h : NamesLine port mask) :
    line? port mask = some (lineNumber port mask) := by
  obtain ⟨n, rfl, rfl⟩ := namesLine_iff.mp h
  rw [lineNumber_eq]
  exact line?_eq_some_iff.mpr ⟨rfl, rfl⟩

theorem namesLine_of_line? (h : line? port mask = some n) : NamesLine port mask :=
  namesLine_iff.mpr ⟨n, line?_eq_some_iff.mp h⟩

/-! ## The fields of a block -/

/-- How a configuration is written: the marker, the lines, and the other fields in order. -/
def toBlock (c : Config) : List UInt8 :=
  1 :: c.pins.toList.flatMap (fun line ↦ [portOf line, maskOf line]) ++
    [c.creditTotal, c.pipes.packetRx, c.pipes.controlTx, c.pipes.controlRx,
      Word.low c.connectTimeout, Word.high c.connectTimeout,
      Word.low c.advertisingInterval, Word.high c.advertisingInterval]

/-- The bytes of a block that are looked at. -/
def blockBytes (block : List UInt8) : List UInt8 := (block.drop 1).take 21

/-- The line at one of the six places for lines. -/
def lineAt? (block : List UInt8) (i : Nat) : Option UInt8 :=
  line? (block.getD (2 + 2 * i) 0) (block.getD (3 + 2 * i) 0)

variable {block : List UInt8} {pins : RadioPins} {c : Config}

/-- The bytes of a block that is long enough, one by one. -/
theorem blockBytes_eq (long : 22 ≤ block.length) :
    blockBytes block = (List.range 21).map fun i ↦ block.getD (1 + i) 0 := by
  refine List.ext_getElem ?_ fun i hi hi' ↦ ?_
  · simp only [blockBytes, List.length_take, List.length_drop, List.length_map, List.length_range]
    omega
  · simp only [blockBytes, List.getElem_take, List.getElem_drop, List.getElem_map,
      List.getElem_range]
    rw [List.getD_eq_getElem?_getD, List.getElem?_eq_getElem, Option.getD_some]

/-- Each of the six lines can be read, or nothing is. -/
theorem pins?_eq_some_iff : pins? block = some pins ↔
    lineAt? block 0 = some pins.request ∧ lineAt? block 1 = some pins.ready ∧
      lineAt? block 2 = some pins.mosi ∧ lineAt? block 3 = some pins.miso ∧
      lineAt? block 4 = some pins.clock ∧ lineAt? block 5 = some pins.reset := by
  simp only [pins?, Option.bind_eq_bind, Option.bind_eq_some_iff]
  constructor
  · rintro ⟨_, h₀, _, h₁, _, h₂, _, h₃, _, h₄, _, h₅, ⟨⟩⟩
    exact ⟨h₀, h₁, h₂, h₃, h₄, h₅⟩
  · rintro ⟨h₀, h₁, h₂, h₃, h₄, h₅⟩
    exact ⟨_, h₀, _, h₁, _, h₂, _, h₃, _, h₄, _, h₅, rfl⟩

/-- A block has the bytes of a configuration just when it has the marker, and its lines and its
other fields are those of the configuration. -/
theorem blockBytes_eq_toBlock_iff (long : 22 ≤ block.length) :
    blockBytes block = c.toBlock ↔ block.getD 1 0 = 1 ∧ pins? block = some c.pins ∧
      ofBlock c.pins block = { c with valid := true, receiptInterval := 0 } := by
  obtain ⟨valid, pins, credit, ⟨packetRx, controlTx, controlRx⟩, timeout, interval, receipt⟩ := c
  rw [blockBytes_eq long, pins?_eq_some_iff]
  simp [toBlock, RadioPins.toList, ofBlock, List.range_succ, lineAt?, line?_eq_some_iff,
    Word.ofBytes_eq_iff, and_assoc]

/-! ## Reading blocks -/

/-- All six lines can be. -/
def NamesLines (block : List UInt8) : Prop :=
  ∀ i < 6, NamesLine (block.getD (2 + 2 * i) 0) (block.getD (3 + 2 * i) 0)

/-- The configuration that a block describes, whether or not it can be used. -/
def described (block : List UInt8) : Config :=
  let line i := lineNumber (block.getD (2 + 2 * i) 0) (block.getD (3 + 2 * i) 0)
  ofBlock ⟨line 0, line 1, line 2, line 3, line 4, line 5⟩ block

theorem pins?_of_namesLines (h : NamesLines block) : pins? block = some (described block).pins := by
  have line (i : Nat) (hi : i < 6) := line?_of_namesLine (h i hi)
  exact pins?_eq_some_iff.mpr ⟨line 0 (by decide), line 1 (by decide), line 2 (by decide),
    line 3 (by decide), line 4 (by decide), line 5 (by decide)⟩

theorem namesLines_of_pins? (h : pins? block = some pins) : NamesLines block := by
  obtain ⟨h₀, h₁, h₂, h₃, h₄, h₅⟩ := pins?_eq_some_iff.mp h
  intro i hi
  match i, hi with
  | 0, _ => exact namesLine_of_line? h₀
  | 1, _ => exact namesLine_of_line? h₁
  | 2, _ => exact namesLine_of_line? h₂
  | 3, _ => exact namesLine_of_line? h₃
  | 4, _ => exact namesLine_of_line? h₄
  | 5, _ => exact namesLine_of_line? h₅

theorem pins?_eq_none (h : ¬NamesLines block) : pins? block = none :=
  Option.eq_none_iff_forall_ne_some.mpr fun _ hpins ↦ h (namesLines_of_pins? hpins)

theorem ofBlock?_of_short (short : block.length < 22) : ofBlock? block = .error .corrupted :=
  if_pos short

theorem ofBlock?_of_unmarked (long : 22 ≤ block.length) (unmarked : block.getD 1 0 ≠ 1) :
    ofBlock? block = .error .notFound := by
  rw [ofBlock?, if_neg (Nat.not_lt_of_le long), if_pos unmarked]

theorem ofBlock?_of_unnamed (long : 22 ≤ block.length) (marked : block.getD 1 0 = 1)
    (unnamed : ¬NamesLines block) : ofBlock? block = .error .corrupted := by
  rw [ofBlock?, if_neg (Nat.not_lt_of_le long), if_neg (not_not_intro marked),
    pins?_eq_none unnamed]

/-- Where all is there, what is described is read, unless it breaks a rule. -/
theorem ofBlock?_of_named (long : 22 ≤ block.length) (marked : block.getD 1 0 = 1)
    (named : NamesLines block) :
    ofBlock? block = (described block).validate.map fun _ ↦ described block := by
  have hsame : ofBlock (described block).pins block = described block := rfl
  rw [ofBlock?, if_neg (Nat.not_lt_of_le long), if_neg (not_not_intro marked),
    pins?_of_namesLines named]
  dsimp only
  rw [hsame]
  cases (described block).validate <;> rfl

/-- What is read is what is described, by a block with all that there should be. -/
theorem ofBlock?_eq_ok_iff_described : ofBlock? block = .ok c ↔
    22 ≤ block.length ∧ block.getD 1 0 = 1 ∧ NamesLines block ∧
      (described block).validate = .ok () ∧ c = described block := by
  constructor
  · intro h
    by_cases long : 22 ≤ block.length
    · by_cases marked : block.getD 1 0 = 1
      · by_cases named : NamesLines block
        · rw [ofBlock?_of_named long marked named] at h
          cases valid : (described block).validate with
          | error e => exact absurd h (by simp [valid, Except.map])
          | ok _ =>
              rw [valid] at h
              exact ⟨long, marked, named, rfl, (Except.ok.inj h).symm⟩
        · exact absurd h (by simp [ofBlock?_of_unnamed long marked named])
      · exact absurd h (by simp [ofBlock?_of_unmarked long marked])
    · exact absurd h (by simp [ofBlock?_of_short (Nat.lt_of_not_le long)])
  · rintro ⟨long, marked, named, valid, rfl⟩
    rw [ofBlock?_of_named long marked named, valid]
    rfl

/-- What can be read is what is written of a valid configuration. -/
theorem ofBlock?_eq_ok_iff : ofBlock? block = .ok c ↔
    22 ≤ block.length ∧ blockBytes block = c.toBlock ∧
      c.valid = true ∧ c.receiptInterval = 0 ∧ c.validate = .ok () := by
  rw [ofBlock?_eq_ok_iff_described]
  constructor
  · rintro ⟨long, marked, named, valid, rfl⟩
    exact ⟨long, (blockBytes_eq_toBlock_iff long).mpr ⟨marked, pins?_of_namesLines named, rfl⟩,
      rfl, rfl, valid⟩
  · rintro ⟨long, hbytes, hvalid, hinterval, valid⟩
    obtain ⟨marked, hpins, hfields⟩ := (blockBytes_eq_toBlock_iff long).mp hbytes
    have named := namesLines_of_pins? hpins
    have hsame : c.pins = (described block).pins :=
      Option.some.inj (hpins.symm.trans (pins?_of_namesLines named))
    -- no block says whether it is valid or what the interval of receipts is; these two are as read
    have hc : c = described block :=
      calc c = { c with valid := true, receiptInterval := 0 } := by rw [← hvalid, ← hinterval]
        _ = ofBlock c.pins block := hfields.symm
        _ = ofBlock (described block).pins block := by rw [hsame]
        _ = described block := rfl
    exact ⟨long, marked, named, hc ▸ valid, hc⟩

theorem length_toBlock (c : Config) : c.toBlock.length = 21 := rfl

/-- Behind any first byte, what is written of a configuration are the bytes that are looked at,
whatever follows. -/
theorem blockBytes_toBlock (c : Config) (first : UInt8) (rest : List UInt8) :
    blockBytes (first :: (c.toBlock ++ rest)) = c.toBlock :=
  List.take_left' c.length_toBlock

/-- A block is long enough if it has all the bytes that are looked at. -/
theorem length_of_blockBytes (h : blockBytes block = c.toBlock) : 22 ≤ block.length := by
  have hlen := congrArg List.length h
  rw [c.length_toBlock, blockBytes, List.length_take, List.length_drop] at hlen
  omega

/-- Provisioned blocks and configurations correspond.  A block is refused because it is too short,
or else not marked, or else has a line that cannot be, or else describes a configuration that breaks
a rule; of several faults the first is reported, and any other block is read as what it describes.
Two blocks are read as one configuration just when they have the same bytes from the second to the
22nd, whatever the first byte and all that follows.  And just the marked configurations without
receipts that break no rule are read from some block, so whatever their lines are. -/
theorem corresponds_to_block :
    (∀ block : List UInt8,
      (block.length < 22 → ofBlock? block = .error .corrupted) ∧
      (22 ≤ block.length → block.getD 1 0 ≠ 1 → ofBlock? block = .error .notFound) ∧
      (22 ≤ block.length → block.getD 1 0 = 1 → ¬NamesLines block →
        ofBlock? block = .error .corrupted) ∧
      (22 ≤ block.length → block.getD 1 0 = 1 → NamesLines block →
        ∀ e, (described block).validate = .error e → ofBlock? block = .error e) ∧
      ∀ c, ofBlock? block = .ok c ↔ 22 ≤ block.length ∧ block.getD 1 0 = 1 ∧ NamesLines block ∧
        (described block).validate = .ok () ∧ c = described block) ∧
    (∀ block c, ofBlock? block = .ok c → ∀ block',
      ofBlock? block' = .ok c ↔ blockBytes block' = blockBytes block) ∧
    ∀ c : Config, (∃ block, ofBlock? block = .ok c) ↔
      c.valid = true ∧ c.receiptInterval = 0 ∧ c.validate = .ok () := by
  refine ⟨fun block ↦ ⟨ofBlock?_of_short, ofBlock?_of_unmarked, ofBlock?_of_unnamed,
    fun long marked named e broken ↦ ?_, fun c ↦ ofBlock?_eq_ok_iff_described⟩,
    fun block c h block' ↦ ?_, fun c ↦ ⟨?_, fun h ↦ ?_⟩⟩
  · rw [ofBlock?_of_named long marked named, broken]
    rfl
  · obtain ⟨-, hbytes, hrest⟩ := ofBlock?_eq_ok_iff.mp h
    rw [ofBlock?_eq_ok_iff, hbytes]
    exact ⟨fun h' ↦ h'.2.1, fun h' ↦ ⟨length_of_blockBytes h', h', hrest⟩⟩
  · rintro ⟨block, h⟩
    exact (ofBlock?_eq_ok_iff.mp h).2.2
  · have hbytes := c.blockBytes_toBlock 0 []
    exact ⟨_, ofBlock?_eq_ok_iff.mpr ⟨length_of_blockBytes hbytes, hbytes, h⟩⟩

/-- The last line there is, and the first one.  A port beyond the last is refused, but a block that
is not marked is not even looked at. -/
theorem corresponds_to_block_last_line :
    let fields := [0, 1, 1, 8, 1, 16, 1, 32, 3, 16, 2, 8, 9, 10, 180, 0, 0x50, 0]
    let block (marker port mask : UInt8) := 0xFF :: marker :: port :: mask :: fields
    let c : Config := ⟨true, ⟨255, 0, 11, 12, 13, 28⟩, 2, ⟨8, 9, 10⟩, 180, 0x50, 0⟩
    (ofBlock? (block 1 31 0x80) = .ok c ∧
      ofBlock? (7 :: (block 1 31 0x80).drop 1 ++ [1, 2, 3]) = .ok c) ∧
    ofBlock? (block 1 32 0x80) = .error .corrupted ∧
    ofBlock? (block 0 32 0x80) = .error .notFound ∧
    ∃ b, ofBlock? b = .ok { c with connectTimeout := 0xFFFF } := by
  intro fields block c
  obtain ⟨reads, same, image⟩ := corresponds_to_block
  have hread : ofBlock? (block 1 31 0x80) = .ok c :=
    ofBlock?_eq_ok_iff.mpr ⟨by decide, by decide, rfl, rfl, rfl⟩
  obtain ⟨-, -, unnamed, -⟩ := reads (block 1 32 0x80)
  obtain ⟨-, unmarked, -⟩ := reads (block 0 32 0x80)
  refine ⟨⟨hread, (same _ c hread _).mpr rfl⟩, ?_, ?_, (image _).mpr ⟨rfl, rfl, rfl⟩⟩
  · exact unnamed (by decide) rfl fun named ↦ absurd (named 0 (by decide)).2 (by decide)
  · exact unmarked (by decide) (by decide)

end Config

end RadioBoot
