import DotMatrix.Snapshot.Error
import DotMatrix.Snapshot.Record

/-! The ranges that a running console keeps. A snapshot is taken over only if every part
lies within them; the checks run in a fixed order, and the first flaw is reported. -/
namespace DotMatrix

def require {ε : Type} (condition : Bool) (flaw : ε) : Except ε Unit :=
  if condition then .ok () else .error flaw

def ClockTime.withinMasks (t : ClockTime) : Bool := t.masked == t

def Clock.checkLayout (c : Clock) : Except Flaw Unit := do
  require (c.time.withinMasks && c.latched.withinMasks) (.clockRegisters c.time)
  require (c.subsecond.toNat < cyclesPerSecond) (.subsecond c.subsecond)

/-- The clocks must both be there or both be missing. -/
def Mapper.checkLayout (live saved : Mapper) : Except Flaw Unit :=
  match saved, live with
  | .mbc3 saved, .mbc3 live =>
    match saved.clock, live.clock with
    | some clock, some _ => clock.checkLayout
    | Option.none, Option.none => .ok ()
    | _, _ => .error .clockPresence
  | _, _ => .ok ()

/-- The saved cartridge must be the same hardware as the live one. -/
def Cartridge.checkLayout (live saved : Cartridge) : Except Flaw Unit := do
  require (saved.mapper.kind == live.mapper.kind && saved.ram.size == live.ram.size)
    (.cartridgeKind saved.mapper.kind saved.ram.size live.mapper.kind live.ram.size)
  require (saved.romBanks == live.romBanks && saved.battery == live.battery)
    (.cartridgeBanks saved.romBanks saved.battery live.romBanks live.battery)
  live.mapper.checkLayout saved.mapper

def Sprite.onScreen (s : Sprite) : Bool :=
  let (x, y) := (s.x.toInt, s.y.toInt)
  (-16 ≤ y && y < 144) && (-8 ≤ x && x < 248)

/-- The first dot of the mode and the first dot after it. -/
def Raster.dotRange (r : Raster) : Nat × Nat :=
  match r.mode with
  | .oamScan => (0, oamScanDots)
  | .transfer => (oamScanDots, oamScanDots + r.transferDots.toNat)
  | .horizontalBlank =>
    (if r.registers.lcdOn then oamScanDots + r.transferDots.toNat else 0, dotsPerLine)
  | .verticalBlank => (0, dotsPerLine)

def Raster.checkLayout (r : Raster) : Except Flaw Unit := do
  let line := r.registers.line
  require (r.sprites.length ≤ 10) (.spriteCount r.sprites.length)
  require (r.sprites.all Sprite.onScreen) .spritePosition
  require (line.toNat < linesPerFrame) (.line line)
  require ((line.toNat ≥ screenHeight) == (r.mode == .verticalBlank)) (.modeOnLine r.mode line)
  require (minTransferDots ≤ r.transferDots.toNat && r.transferDots.toNat ≤ maxTransferDots)
    (.transferLength r.transferDots)
  let (first, last) := r.dotRange
  require (first ≤ r.dot.toNat && r.dot.toNat < last) (.dot r.dot r.mode first last)

def VideoRecord.checkLayout (v : VideoRecord) : Except Flaw Unit := do
  require (v.vram.size == 0x2000 && v.oam.size == 0xA0) (.videoMemory v.vram.size v.oam.size)
  require (v.frame.size == 23040) (.pictureSize v.frame.size)
  v.raster.checkLayout

def LengthCounter.checkLayout (full : UInt16) (l : LengthCounter) : Except ChannelFlaw Unit :=
  require (l.counter ≤ full) (.length l.counter full)

def Envelope.checkLayout (e : Envelope) : Except ChannelFlaw Unit :=
  require (e.initial ≤ 15 && e.volume ≤ 15 && e.period ≤ 7 && e.timer ≤ 7) (.envelope e)

def Sweep.checkLayout (s : Sweep) : Except ChannelFlaw Unit :=
  require (s.shift ≤ 7 && s.period ≤ 7 && s.timer ≤ 8 && s.shadow ≤ maxFrequency) (.sweep s)

def Pulse.checkLayout (p : Pulse) : Except ChannelFlaw Unit := do
  require (p.frequency ≤ maxFrequency && p.duty ≤ 3 && p.position ≤ 7)
    (.pulse p.frequency p.duty p.position)
  match p.sweep with
  | some sweep => sweep.checkLayout
  | none => .ok ()
  p.length.checkLayout fullLength
  p.envelope.checkLayout

def Wave.checkLayout (w : Wave) : Except ChannelFlaw Unit := do
  require (w.frequency ≤ maxFrequency && w.position ≤ 31 && w.volumeCode ≤ 3)
    (.wave w.frequency w.position w.volumeCode)
  w.length.checkLayout fullLength

def Noise.checkLayout (n : Noise) : Except ChannelFlaw Unit := do
  require (n.divisor ≤ 7 && n.shift ≤ 15 && n.register ≤ 0x7FFF)
    (.noise n.divisor n.shift n.register)
  n.length.checkLayout fullLength
  n.envelope.checkLayout

def Sound.checkLayout (s : Sound) : Except Flaw Unit := do
  require (s.sequencerTimer.toNat < sequencerPeriod && s.sequencerStep ≤ 7)
    (.sequencer s.sequencerStep s.sequencerTimer)
  require (s.samplePhase.toNat < cyclesPerSecond) (.samplePhase s.samplePhase)
  s.pulse1.checkLayout.mapError (.channel 1)
  s.pulse2.checkLayout.mapError (.channel 2)
  s.wave.checkLayout.mapError (.channel 3)
  s.noise.checkLayout.mapError (.channel 4)

def BoardRecord.checkLayout (live : Board) (saved : BoardRecord) : Except Flaw Unit := do
  require (saved.wram.size == 0x2000 && saved.hram.size == 0x7F)
    (.internalRam saved.wram.size saved.hram.size)
  require (saved.transferStall ≤ Board.transferCycles) (.transferStall saved.transferStall)
  live.cartridge.checkLayout saved.cartridge
  saved.video.checkLayout
  saved.sound.checkLayout

/-- The board that a record describes, if it can take the place of the live one. -/
def BoardRecord.toBoard (live : Board) (saved : BoardRecord) : Except Flaw Board := do
  saved.checkLayout live
  match saved.toBoard? with
  | some board => .ok board
  | none => .error (.internalRam saved.wram.size saved.hram.size)

end DotMatrix
