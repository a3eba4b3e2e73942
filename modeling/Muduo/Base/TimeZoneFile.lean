import Muduo.Base.TimeZone
import Muduo.Lib.BigEndian
import Muduo.Lib.Reading

/-!
Loading a zone file. readTimeZoneFile reads six counts and four arrays as they tell,
and catches what the reads throw, with whatever it has loaded by then; it reports
success in any case. The zone is usable exactly when the file begins with a zone
that is well formed: the counts agree with the arrays, there is a type, and every
index is inside its array.
-/
namespace Muduo
open Lib
namespace TimeZone

/-- A std::logic_error is caught; undefined behaviour is not. -/
inductive Failure where
  | logic_error (what : String)
  | undefined (why : String)
  deriving DecidableEq, Repr

abbrev Loader (α : Type) := Reader Failure UInt8 Data α

def fread (n : Nat) (what : String) : Loader (List UInt8) := fun s =>
  if n ≤ s.rest.length then .ok (s.rest.take n) { s with rest := s.rest.drop n }
  else .error (.logic_error what) { s with rest := [] }

def readBytes (n : Int) : Loader (List UInt8) :=
  if n < 0 then throw (.undefined "char buf[n]") else fread n.toNat "no enough data"

def readInt32 : Loader Int := do
  let x ← fread 4 "bad int32_t data"
  pure (BitVec.ofNat 32 (ofBigEndian x)).toInt

def readUInt8 : Loader UInt8 := do
  let x ← fread 1 "bad uint8_t data"
  pure (x.headD 0)

def check (p : Bool) (what : String) : Loader Unit :=
  if p then pure () else throw (.logic_error what)

def change (f : Data → Data) : Loader Unit := fun s => .ok () { s with data := f s.data }

structure Counts where
  isgmtcnt : Int
  isstdcnt : Int
  leapcnt : Int
  timecnt : Int
  typecnt : Int
  charcnt : Int

def magic : List UInt8 := [0x54, 0x5a, 0x69, 0x66]

def readHead : Loader Counts := do
  let head ← readBytes 4
  check (head = magic) "bad head"
  let _version ← readBytes 1
  let _ ← readBytes 15
  let isgmtcnt ← readInt32
  let isstdcnt ← readInt32
  let leapcnt ← readInt32
  let timecnt ← readInt32
  let typecnt ← readInt32
  let charcnt ← readInt32
  pure ⟨isgmtcnt, isstdcnt, leapcnt, timecnt, typecnt, charcnt⟩

/-- The count is converted to an unsigned one for reserve(), which throws a
    std::length_error when it was negative. -/
def readTimes (timecnt : Int) : Loader (List Int) := do
  check (0 ≤ timecnt) "vector::reserve"
  Reader.collect timecnt.toNat readInt32

def addType (type : Localtime) (d : Data) : Data := { d with localtimes := d.localtimes ++ [type] }

def readType : Loader Unit := do
  let gmtoff ← readInt32
  let isdst ← readUInt8
  let abbrind ← readUInt8
  change (addType ⟨gmtoff, isdst ≠ 0, abbrind.toNat⟩)

def transitionOf (types : List Localtime) (e : Int × UInt8) : Transition :=
  ⟨e.1, e.1 + ((types[e.2.toNat]?).map Localtime.gmtOffset).getD 0, e.2.toNat⟩

def addTransition (e : Int × UInt8) : Loader Unit := fun s =>
  if e.2.toNat < s.data.localtimes.length then
    change (fun d => { d with transitions := d.transitions ++ [transitionOf d.localtimes e] }) s
  else .error (.undefined "data->localtimes[localIdx]") s

def loadArrays : Loader Int := do
  let c ← readHead
  let trans ← readTimes c.timecnt
  let localtimes ← Reader.collect c.timecnt.toNat readUInt8
  let _ ← Reader.collect c.typecnt.toNat readType
  (trans.zip localtimes).forM addTransition
  pure c.charcnt

/-- The leap seconds and the last two arrays of the file are not read. -/
def load : Loader Unit := do
  let charcnt ← loadArrays
  let abbreviation ← readBytes charcnt
  change fun d => { d with abbreviation := abbreviation }

/-- The result, the data and what was printed. The file is missing for `none`. -/
def readTimeZoneFile (zonefile : Option (List UInt8)) (data : Data) :
    Checked (Bool × Data × List String) :=
  match zonefile with
  | none => .ok (true, data, [])
  | some bytes =>
    match load ⟨bytes, data⟩ with
    | .ok _ s => .ok (true, s.data, [])
    | .error (.logic_error what) s => .ok (true, s.data, [what])
    | .error (.undefined why) _ => .error why

def ofFile (zonefile : Option (List UInt8)) : Checked TimeZone := do
  let (loaded, data, _) ← readTimeZoneFile zonefile .empty
  pure ⟨if loaded then some data else none⟩

section
variable {s t : Reading UInt8 Data}

theorem fread_eq_ok {n : Nat} {what : String} {xs : List UInt8} :
    fread n what s = .ok xs t ↔ xs.length = n ∧ s.rest = xs ++ t.rest ∧ t.data = s.data := by
  obtain ⟨rest, data⟩ := s
  obtain ⟨rest', data'⟩ := t
  unfold fread
  dsimp only
  constructor
  · intro ran
    split at ran
    · rename_i enough
      simp only [EStateM.Result.ok.injEq, Reading.mk.injEq] at ran
      obtain ⟨rfl, rfl, rfl⟩ := ran
      exact ⟨List.length_take_of_le enough, (List.take_append_drop n rest).symm, rfl⟩
    · cases ran
  · rintro ⟨rfl, rfl, rfl⟩
    simp

theorem check_eq_ok {p : Bool} {what : String} {u : Unit} :
    check p what s = .ok u t ↔ p = true ∧ s = t := by
  unfold check
  split
  · simp [Reader.pure_eq_ok, *]
  · constructor
    · intro ran
      cases ran
    · rintro ⟨holds, -⟩
      exact absurd holds ‹_›

theorem readBytes_eq_ok {n : Int} {xs : List UInt8} :
    readBytes n s = .ok xs t ↔ (xs.length : Int) = n ∧ s.rest = xs ++ t.rest ∧ t.data = s.data := by
  unfold readBytes
  split
  · constructor
    · intro ran
      cases ran
    · rintro ⟨length, -⟩
      omega
  · rw [fread_eq_ok]
    constructor
    · rintro ⟨length, rest⟩
      exact ⟨by omega, rest⟩
    · rintro ⟨length, rest⟩
      exact ⟨by omega, rest⟩

end

def int32Bytes (x : BitVec 32) : List UInt8 := bigEndian 4 x.toNat

theorem int32_of_bytes {xs : List UInt8} (length : xs.length = 4) :
    int32Bytes (BitVec.ofNat 32 (ofBigEndian xs)) = xs := by
  have small : ofBigEndian xs < 2 ^ 32 := by
    have bound := ofBigEndian_lt xs
    rw [length] at bound
    exact bound
  unfold int32Bytes
  rw [BitVec.toNat_ofNat, Nat.mod_eq_of_lt small]
  exact bigEndian_ofBigEndian length

theorem bytes_of_int32 (x : BitVec 32) : BitVec.ofNat 32 (ofBigEndian (int32Bytes x)) = x := by
  unfold int32Bytes
  rw [ofBigEndian_bigEndian]
  apply BitVec.eq_of_toNat_eq
  rw [BitVec.toNat_ofNat]
  have small := x.isLt
  omega

theorem readInt32_reads : Reader.Reads readInt32 int32Bytes BitVec.toInt fun _ d => d := by
  intro s a t
  simp only [readInt32, Reader.bind_eq_ok, Reader.pure_eq_ok, fread_eq_ok]
  constructor
  · rintro ⟨xs, u, ⟨length, rest, data⟩, rfl, rfl⟩
    exact ⟨_, rfl, by rw [int32_of_bytes length]; exact rest, data⟩
  · rintro ⟨w, rfl, rest, data⟩
    exact ⟨int32Bytes w, t, ⟨length_bigEndian 4 _, rest, data⟩, by rw [bytes_of_int32], rfl⟩

theorem readUInt8_reads : Reader.Reads readUInt8 (fun b => [b]) id fun _ d => d := by
  intro s a t
  simp only [readUInt8, Reader.bind_eq_ok, Reader.pure_eq_ok, fread_eq_ok]
  constructor
  · rintro ⟨xs, u, ⟨length, rest, data⟩, rfl, rfl⟩
    obtain ⟨b, rfl⟩ := List.length_eq_one_iff.mp length
    exact ⟨b, rfl, rest, data⟩
  · rintro ⟨b, same, rest, data⟩
    exact ⟨[b], t, ⟨rfl, rest, data⟩, same.symm, rfl⟩

structure Head where
  version : UInt8
  reserved : List UInt8
  isgmtcnt : BitVec 32
  isstdcnt : BitVec 32
  leapcnt : BitVec 32
  timecnt : BitVec 32
  typecnt : BitVec 32
  charcnt : BitVec 32
  full : reserved.length = 15

def Head.bytes (h : Head) : List UInt8 :=
  magic ++ [h.version] ++ h.reserved ++ int32Bytes h.isgmtcnt ++ int32Bytes h.isstdcnt ++
    int32Bytes h.leapcnt ++ int32Bytes h.timecnt ++ int32Bytes h.typecnt ++ int32Bytes h.charcnt

def Head.counts (h : Head) : Counts :=
  ⟨h.isgmtcnt.toInt, h.isstdcnt.toInt, h.leapcnt.toInt, h.timecnt.toInt, h.typecnt.toInt,
    h.charcnt.toInt⟩

theorem readHead_reads : Reader.Reads readHead Head.bytes Head.counts fun _ d => d := by
  intro s a t
  simp only [readHead, Reader.bind_eq_ok, Reader.pure_eq_ok, readBytes_eq_ok, check_eq_ok,
    readInt32_reads _ _ _]
  constructor
  · rintro ⟨head, s₁, ⟨-, rest₁, data₁⟩, -, s₂, ⟨same, rfl⟩, version, s₃, ⟨one, rest₃, data₃⟩,
      reserved, s₄, ⟨full, rest₄, data₄⟩, -, s₅, ⟨w₅, rfl, rest₅, data₅⟩, -, s₆,
      ⟨w₆, rfl, rest₆, data₆⟩, -, s₇, ⟨w₇, rfl, rest₇, data₇⟩, -, s₈, ⟨w₈, rfl, rest₈, data₈⟩,
      -, s₉, ⟨w₉, rfl, rest₉, data₉⟩, -, s₁₀, ⟨w₁₀, rfl, rest₁₀, data₁₀⟩, rfl, rfl⟩
    obtain ⟨v, rfl⟩ := List.length_eq_one_iff.mp (by omega : version.length = 1)
    have same : head = magic := by simpa using same
    subst same
    refine ⟨⟨v, reserved, w₅, w₆, w₇, w₈, w₉, w₁₀, by omega⟩, rfl, ?_, ?_⟩
    · rw [rest₁, rest₃, rest₄, rest₅, rest₆, rest₇, rest₈, rest₉, rest₁₀]
      simp only [Head.bytes, List.append_assoc]
    · rw [data₁₀, data₉, data₈, data₇, data₆, data₅, data₄, data₃, data₁]
  · rintro ⟨h, rfl, rest, data⟩
    simp only [Head.bytes, List.append_assoc] at rest
    refine ⟨magic, ⟨_, s.data⟩, ⟨rfl, rest, rfl⟩, (), _, ⟨by simp, rfl⟩, [h.version], ⟨_, s.data⟩,
      ⟨rfl, rfl, rfl⟩, h.reserved, ⟨_, s.data⟩, ⟨by rw [h.full]; rfl, rfl, rfl⟩,
      _, ⟨_, s.data⟩, ⟨h.isgmtcnt, rfl, rfl, rfl⟩, _, ⟨_, s.data⟩, ⟨h.isstdcnt, rfl, rfl, rfl⟩,
      _, ⟨_, s.data⟩, ⟨h.leapcnt, rfl, rfl, rfl⟩, _, ⟨_, s.data⟩, ⟨h.timecnt, rfl, rfl, rfl⟩,
      _, ⟨_, s.data⟩, ⟨h.typecnt, rfl, rfl, rfl⟩, _, t, ⟨h.charcnt, rfl, rfl, data⟩, rfl, rfl⟩

structure Ttinfo where
  gmtoff : BitVec 32
  isdst : UInt8
  abbrind : UInt8

def Ttinfo.bytes (w : Ttinfo) : List UInt8 := int32Bytes w.gmtoff ++ [w.isdst, w.abbrind]

def Ttinfo.type (w : Ttinfo) : Localtime := ⟨w.gmtoff.toInt, w.isdst ≠ 0, w.abbrind.toNat⟩

section
variable {s t : Reading UInt8 Data}

theorem change_eq_ok {f : Data → Data} {u : Unit} :
    change f s = .ok u t ↔ s.rest = t.rest ∧ t.data = f s.data := by
  obtain ⟨rest, data⟩ := s
  obtain ⟨rest', data'⟩ := t
  simp [change, eq_comm]

theorem readType_reads :
    Reader.Reads readType Ttinfo.bytes (fun _ => ()) fun w d => addType w.type d := by
  intro s a t
  simp only [readType, Reader.bind_eq_ok, readInt32_reads _ _ _, readUInt8_reads _ _ _,
    change_eq_ok]
  constructor
  · rintro ⟨-, s₁, ⟨w, rfl, rest₁, data₁⟩, dst, s₂, ⟨_, rfl, rest₂, data₂⟩, ind, s₃,
      ⟨_, rfl, rest₃, data₃⟩, rest₄, data₄⟩
    refine ⟨⟨w, dst, ind⟩, trivial, ?_, ?_⟩
    · rw [rest₁, rest₂, rest₃, rest₄]
      simp [Ttinfo.bytes]
    · rw [data₄, data₃, data₂, data₁]
      rfl
  · rintro ⟨w, -, rest, data⟩
    rw [Ttinfo.bytes, List.append_assoc] at rest
    exact ⟨_, ⟨_, s.data⟩, ⟨w.gmtoff, rfl, rest, rfl⟩, _, ⟨_, s.data⟩, ⟨w.isdst, rfl, rfl, rfl⟩,
      _, ⟨t.rest, s.data⟩, ⟨w.abbrind, rfl, rfl, rfl⟩, rfl, data⟩

theorem foldl_addType (types : List Ttinfo) (d : Data) :
    types.foldl (fun d w => addType w.type d) d =
      { d with localtimes := d.localtimes ++ types.map Ttinfo.type } := by
  induction types generalizing d with
  | nil => simp
  | cons w types ih =>
    rw [List.foldl_cons, ih]
    simp [addType]

theorem addTransition_eq_ok {e : Int × UInt8} {u : Unit} :
    addTransition e s = .ok u t ↔ e.2.toNat < s.data.localtimes.length ∧ s.rest = t.rest ∧
      t.data = { s.data with
        transitions := s.data.transitions ++ [transitionOf s.data.localtimes e] } := by
  unfold addTransition
  split
  · simp [change_eq_ok, *]
  · simp [*]

theorem addTransitions_eq_ok {es : List (Int × UInt8)} {u : PUnit} :
    es.forM addTransition s = .ok u t ↔ (∀ e ∈ es, e.2.toNat < s.data.localtimes.length) ∧
      s.rest = t.rest ∧
      t.data = { s.data with
        transitions := s.data.transitions ++ es.map (transitionOf s.data.localtimes) } := by
  induction es generalizing s with
  | nil =>
    have ended : ([] : List (Int × UInt8)).forM addTransition s = .ok u t ↔ s = t := by
      show (pure PUnit.unit : Loader PUnit) s = .ok u t ↔ s = t
      simp [Reader.pure_eq_ok]
    rw [ended]
    constructor
    · rintro rfl
      simp
    · rintro ⟨-, rest, data⟩
      obtain ⟨bytes, d⟩ := s
      obtain ⟨bytes', d'⟩ := t
      simp_all
  | cons e es ih =>
    have first : (e :: es).forM addTransition s = .ok u t ↔
        ∃ a v, addTransition e s = .ok a v ∧ es.forM addTransition v = .ok u t :=
      Reader.bind_eq_ok
    rw [first, List.forall_mem_cons]
    constructor
    · rintro ⟨a, v, added, later⟩
      obtain ⟨inside, rest, data⟩ := addTransition_eq_ok.mp added
      obtain ⟨all, rest', data'⟩ := ih.mp later
      rw [data] at all data'
      refine ⟨⟨inside, all⟩, rest.trans rest', ?_⟩
      simpa using data'
    · rintro ⟨⟨inside, all⟩, rest, data⟩
      let next : Data := { s.data with
        transitions := s.data.transitions ++ [transitionOf s.data.localtimes e] }
      refine ⟨(), ⟨s.rest, next⟩, addTransition_eq_ok.mpr ⟨inside, rfl, rfl⟩,
        ih.mpr ⟨all, rest, ?_⟩⟩
      simpa [next] using data

end

/-- The contents of a zone file. The counts agree with the arrays; a negative number of
    types is as good as none. -/
structure Zone where
  head : Head
  times : List (BitVec 32)
  indices : List UInt8
  types : List Ttinfo
  chars : List UInt8
  timecnt : head.timecnt.toInt = times.length
  paired : indices.length = times.length
  typecnt : types.length = head.typecnt.toInt.toNat
  charcnt : head.charcnt.toInt = chars.length

namespace Zone

def bytes (z : Zone) : List UInt8 :=
  z.head.bytes ++ z.times.flatMap int32Bytes ++ z.indices ++ z.types.flatMap Ttinfo.bytes ++ z.chars

def localtimes (z : Zone) : List Localtime := z.types.map Ttinfo.type

def data (z : Zone) : Data :=
  ⟨((z.times.map BitVec.toInt).zip z.indices).map (transitionOf z.localtimes), z.localtimes, z.chars⟩

def InRange (z : Zone) : Prop := ∀ i ∈ z.indices, i.toNat < z.types.length

theorem seconds (z : Zone) :
    ((z.times.map BitVec.toInt).zip z.indices).map Prod.snd = z.indices := by
  refine List.map_snd_zip ?_
  rw [List.length_map, z.paired]

theorem inRange_iff (z : Zone) : z.InRange ↔
    ∀ e ∈ (z.times.map BitVec.toInt).zip z.indices, e.2.toNat < z.localtimes.length := by
  have length : z.localtimes.length = z.types.length := List.length_map _
  rw [length]
  have members := List.forall_mem_map (f := Prod.snd)
    (l := (z.times.map BitVec.toInt).zip z.indices) (P := fun i => i.toNat < z.types.length)
  rw [z.seconds] at members
  exact members

end Zone

section
variable {s t : Reading UInt8 Data}

theorem loadArrays_eq_ok {bytes : List UInt8} {charcnt : Int} :
    loadArrays ⟨bytes, .empty⟩ = .ok charcnt t ↔
      ∃ (h : Head) (times : List (BitVec 32)) (indices : List UInt8) (types : List Ttinfo),
        charcnt = h.charcnt.toInt ∧ h.timecnt.toInt = times.length ∧
        indices.length = times.length ∧ types.length = h.typecnt.toInt.toNat ∧
        bytes = h.bytes ++ times.flatMap int32Bytes ++ indices ++ types.flatMap Ttinfo.bytes ++
          t.rest ∧
        (∀ e ∈ (times.map BitVec.toInt).zip indices,
          e.2.toNat < (types.map Ttinfo.type).length) ∧
        t.data = ⟨((times.map BitVec.toInt).zip indices).map
          (transitionOf (types.map Ttinfo.type)), types.map Ttinfo.type, []⟩ := by
  simp only [loadArrays, readTimes, Reader.bind_eq_ok, Reader.pure_eq_ok, check_eq_ok,
    readHead_reads _ _ _, Reader.collect_reads readInt32_reads,
    Reader.collect_reads readUInt8_reads, Reader.collect_reads readType_reads,
    addTransitions_eq_ok, foldl_addType, List.foldl_fixed]
  constructor
  · rintro ⟨-, s₁, ⟨h, rfl, rest₁, data₁⟩, -, s₃, ⟨_, s₂, ⟨positive, rfl⟩, times, count, rfl, rest₃,
      data₃⟩, -, s₄, ⟨indices, paired, rfl, rest₄, data₄⟩, -, s₅, ⟨types, number, rfl, rest₅, data₅⟩,
      -, s₆, ⟨all, rest₆, data₆⟩, rfl, rfl⟩
    have positive : 0 ≤ h.timecnt.toInt := of_decide_eq_true positive
    have count : times.length = h.timecnt.toInt.toNat := count
    have data : s₅.data = ⟨[], types.map Ttinfo.type, []⟩ := by
      rw [data₅, data₄, data₃, data₁]
      simp [Data.empty]
    rw [data] at all data₆
    rw [List.map_id] at all data₆
    refine ⟨h, times, indices, types, rfl, by omega, paired.trans count.symm, number, ?_, all, data₆⟩
    rw [rest₃, rest₄, rest₅, rest₆, List.flatMap_singleton'] at rest₁
    simpa using rest₁
  · rintro ⟨h, times, indices, types, rfl, count, paired, number, rfl, all, data⟩
    simp only [List.append_assoc]
    have total : h.counts.timecnt.toNat = times.length := by
      show h.timecnt.toInt.toNat = times.length
      omega
    refine ⟨h.counts, ⟨_, .empty⟩, ⟨h, rfl, rfl, rfl⟩, times.map BitVec.toInt,
      ⟨indices ++ (types.flatMap Ttinfo.bytes ++ t.rest), .empty⟩,
      ⟨(), _, ⟨decide_eq_true ?_, rfl⟩, times, total.symm, rfl, rfl, rfl⟩,
      indices, ⟨types.flatMap Ttinfo.bytes ++ t.rest, .empty⟩,
      ⟨indices, paired.trans total.symm, (List.map_id _).symm, by rw [List.flatMap_singleton'], rfl⟩,
      _, ⟨t.rest, ⟨[], types.map Ttinfo.type, []⟩⟩, ⟨types, number, rfl, rfl, rfl⟩,
      (), t, ⟨all, rfl, data⟩, rfl, rfl⟩
    show 0 ≤ h.timecnt.toInt
    omega

theorem load_eq_ok {bytes : List UInt8} {u : Unit} :
    load ⟨bytes, .empty⟩ = .ok u t ↔
      ∃ z : Zone, z.InRange ∧ bytes = z.bytes ++ t.rest ∧ t.data = z.data := by
  simp only [load, Reader.bind_eq_ok, loadArrays_eq_ok, readBytes_eq_ok, change_eq_ok]
  constructor
  · rintro ⟨-, s₁, ⟨h, times, indices, types, rfl, count, paired, number, rfl, all, data⟩, chars, s₂,
      ⟨length, rest, same⟩, rest', data'⟩
    let z : Zone := ⟨h, times, indices, types, chars, count, paired, number, length.symm⟩
    refine ⟨z, z.inRange_iff.mpr all, ?_, ?_⟩
    · rw [rest, rest']
      simp [z, Zone.bytes]
    · rw [data', same, data]
      rfl
  · rintro ⟨z, inside, rfl, data⟩
    have counted := z.charcnt
    let before : Data := { z.data with abbreviation := [] }
    exact ⟨_, ⟨z.chars ++ t.rest, before⟩, ⟨z.head, z.times, z.indices, z.types, rfl, z.timecnt,
      z.paired, z.typecnt, by simp [Zone.bytes], z.inRange_iff.mp inside, rfl⟩, z.chars,
      ⟨t.rest, before⟩, ⟨counted.symm, rfl, rfl⟩, rfl, data⟩

end

section
variable {γ : Type} (part : Data → γ)

theorem throw_keeps {α : Type} (e : Failure) : Reader.Keeps part (throw e : Loader α) := fun _ => rfl

theorem fread_keeps (n : Nat) (what : String) : Reader.Keeps part (fread n what) := by
  refine Reader.keeps_intro ?_ ?_
  · intro s xs t ran
    rw [(fread_eq_ok.mp ran).2.2]
  · intro s e t failed
    unfold fread at failed
    split at failed
    · cases failed
    · cases failed
      rfl

theorem readBytes_keeps (n : Int) : Reader.Keeps part (readBytes n) := by
  unfold readBytes
  split
  · exact throw_keeps part _
  · exact fread_keeps part _ _

theorem readInt32_keeps : Reader.Keeps part readInt32 :=
  Reader.keeps_bind (fread_keeps part _ _) fun _ => Reader.keeps_pure _

theorem readUInt8_keeps : Reader.Keeps part readUInt8 :=
  Reader.keeps_bind (fread_keeps part _ _) fun _ => Reader.keeps_pure _

theorem check_keeps (p : Bool) (what : String) : Reader.Keeps part (check p what) := by
  unfold check
  split
  · exact Reader.keeps_pure _
  · exact throw_keeps part _

theorem readHead_keeps : Reader.Keeps part readHead := by
  unfold readHead
  refine Reader.keeps_bind (readBytes_keeps part _) fun _ => ?_
  refine Reader.keeps_bind (check_keeps part _ _) fun _ => ?_
  refine Reader.keeps_bind (readBytes_keeps part _) fun _ => ?_
  refine Reader.keeps_bind (readBytes_keeps part _) fun _ => ?_
  iterate 6 refine Reader.keeps_bind (readInt32_keeps part) fun _ => ?_
  exact Reader.keeps_pure _

end

theorem readType_keeps : Reader.Keeps Data.abbreviation readType := by
  unfold readType
  refine Reader.keeps_bind (readInt32_keeps _) fun _ => ?_
  refine Reader.keeps_bind (readUInt8_keeps _) fun _ => ?_
  refine Reader.keeps_bind (readUInt8_keeps _) fun _ => ?_
  exact fun _ => rfl

theorem addTransition_keeps (e : Int × UInt8) :
    Reader.Keeps Data.abbreviation (addTransition e) := by
  refine Reader.keeps_intro ?_ ?_
  · intro s u t ran
    rw [(addTransition_eq_ok.mp ran).2.2]
  · intro s failure t failed
    unfold addTransition at failed
    split at failed
    · cases failed
    · cases failed
      rfl

theorem loadArrays_keeps : Reader.Keeps Data.abbreviation loadArrays := by
  unfold loadArrays readTimes
  refine Reader.keeps_bind (readHead_keeps _) fun c => ?_
  refine Reader.keeps_bind ?_ fun trans => ?_
  · refine Reader.keeps_bind (check_keeps _ _ _) fun _ => ?_
    exact Reader.keeps_collect (readInt32_keeps _) _
  refine Reader.keeps_bind (Reader.keeps_collect (readUInt8_keeps _) _) fun localtimes => ?_
  refine Reader.keeps_bind (Reader.keeps_collect readType_keeps _) fun _ => ?_
  refine Reader.keeps_bind (Reader.keeps_forM _ fun e _ => addTransition_keeps e) fun _ => ?_
  exact Reader.keeps_pure _

theorem load_error {s t : Reading UInt8 Data} {e : Failure} (failed : load s = .error e t) :
    t.data.abbreviation = s.data.abbreviation := by
  rcases Reader.bind_eq_error.mp failed with early | ⟨charcnt, u, arrays, late⟩
  · exact loadArrays_keeps.of_error early
  · have before := loadArrays_keeps s
    unfold Reader.dataAfter at before
    rw [arrays] at before
    rcases Reader.bind_eq_error.mp late with short | ⟨chars, v, -, impossible⟩
    · exact ((readBytes_keeps _ _).of_error short).trans before
    · cases impossible

namespace Zone
variable {z : Zone}

theorem indexed (typed : z.types ≠ []) (inside : z.InRange) : z.data.Indexed := by
  refine ⟨by simpa [data, localtimes] using typed, ?_⟩
  intro tr member
  obtain ⟨e, there, rfl⟩ := List.mem_map.mp member
  exact z.inRange_iff.mp inside e there

theorem gmttimes (z : Zone) :
    z.data.transitions.map Transition.gmttime = z.times.map BitVec.toInt := by
  have firsts : ((z.times.map BitVec.toInt).zip z.indices).map Prod.fst =
      z.times.map BitVec.toInt := by
    refine List.map_fst_zip ?_
    rw [List.length_map, z.paired]
  rw [← firsts, data, List.map_map]
  rfl

theorem localtimeIdxs (z : Zone) :
    z.data.transitions.map Transition.localtimeIdx = z.indices.map UInt8.toNat := by
  have named : z.data.transitions.map Transition.localtimeIdx =
      (((z.times.map BitVec.toInt).zip z.indices).map Prod.snd).map UInt8.toNat := by
    rw [data, List.map_map, List.map_map]
    rfl
  rw [named, z.seconds]

theorem transitions_length (z : Zone) : z.data.transitions.length = z.times.length := by
  have lengths := congrArg List.length z.gmttimes
  rwa [List.length_map, List.length_map] at lengths

theorem transition_time (z : Zone) (test : Int → Bool) (j : Nat) :
    (z.data.transitions[j]?).any (fun tr => test tr.gmttime) =
      (z.times[j]?).any fun time => test time.toInt := by
  have same := congrArg (fun times => (times[j]?).any test) z.gmttimes
  simpa only [List.getElem?_map, Option.any_map] using same

/-- The binary search through the times of the file ends at transition `j` for some time: every
    time it compares on the way to place `p` is on the side of `t` that `p` is on. -/
def Reached (z : Zone) (j : Nat) : Prop :=
  ∃ (t : Int) (p : Nat), p ≤ z.times.length ∧ (∃ first ∈ z.times.head?, first.toInt ≤ t) ∧
    (∀ m ∈ probes z.times.length p, ∀ time ∈ z.times[m]?, time.toInt < t ↔ m < p) ∧
    if (z.times[p]?).any (fun time => decide (t = time.toInt)) then j = p else j + 1 = p

/-- There is a type, the transitions have their types, and the names of the first type and of
    those of the transitions that the search can end at begin inside the abbreviations. -/
structure WellFormed (z : Zone) : Prop where
  typed : z.types ≠ []
  inside : z.InRange
  first : ∀ w ∈ z.types[0]?, w.abbrind.toNat < z.chars.length
  named : ∀ j, z.Reached j → ∀ i ∈ z.indices[j]?, ∀ w ∈ z.types[i.toNat]?,
    w.abbrind.toNat < z.chars.length

theorem late_iff (z : Zone) (t : Int) :
    ¬z.data.transitions.head?.all (Comp.less ⟨true⟩ ⟨t, 0, 0⟩) = true ↔
      ∃ first ∈ z.times.head?, first.toInt ≤ t := by
  have same := z.transition_time (fun time => decide (time ≤ t)) 0
  rw [← List.head?_eq_getElem?, ← List.head?_eq_getElem?] at same
  have right : (∃ first ∈ z.times.head?, first.toInt ≤ t) ↔
      z.times.head?.any (fun time => decide (time.toInt ≤ t)) = true := by
    simp [Option.any_eq_true]
  rw [right, ← same]
  cases z.data.transitions.head? with
  | none => simp
  | some first => simp [Comp.less_iff, Comp.key]

theorem search_iff (z : Zone) (t : Int) {p : Nat} (inside : p ≤ z.times.length) :
    lowerBound (fun tr => Comp.less ⟨true⟩ tr ⟨t, 0, 0⟩) z.data.transitions = p ↔
      ∀ m ∈ probes z.times.length p, ∀ time ∈ z.times[m]?, time.toInt < t ↔ m < p := by
  have less (m : Nat) : (z.data.transitions[m]?).any (fun tr => Comp.less ⟨true⟩ tr ⟨t, 0, 0⟩) =
      (z.times[m]?).any fun time => decide (time.toInt < t) :=
    z.transition_time (fun time => decide (time < t)) m
  rw [lowerBound_eq_iff (z.transitions_length ▸ inside), z.transitions_length]
  refine forall₂_congr fun m _ => ?_
  rw [less]
  cases there : z.times[m]? with
  | none =>
    have beyond := List.getElem?_eq_none_iff.mp there
    simp only [Option.any_none, Bool.false_eq_true, false_iff, Option.mem_def, reduceCtorEq,
      false_implies, implies_true, iff_true]
    omega
  | some time => simp

theorem reached_iff (z : Zone) (j : Nat) :
    z.Reached j ↔ ∃ t : Int, z.data.Picks ⟨true⟩ ⟨t, 0, 0⟩ j := by
  have equal (t : Int) (m : Nat) : (z.data.transitions[m]?).any (Comp.equal ⟨true⟩ ⟨t, 0, 0⟩) =
      (z.times[m]?).any fun time => decide (t = time.toInt) :=
    z.transition_time (fun time => decide (t = time)) m
  constructor
  · rintro ⟨t, p, inside, late, points, place⟩
    have found := (z.search_iff t inside).mpr points
    refine ⟨t, (z.late_iff t).mpr late, ?_⟩
    rw [found, equal]
    exact place
  · rintro ⟨t, late, place⟩
    have inside := lowerBound_le (fun tr => Comp.less ⟨true⟩ tr ⟨t, 0, 0⟩) z.data.transitions
    rw [z.transitions_length] at inside
    rw [equal] at place
    exact ⟨t, _, inside, (z.late_iff t).mp late, (z.search_iff t inside).mp rfl, place⟩

theorem usable_iff (typed : z.types ≠ []) (inside : z.InRange) :
    z.data.Usable ↔ z.WellFormed := by
  have transition (j : Nat) (tr : Transition) (there : z.data.transitions[j]? = some tr) :
      (z.indices[j]?).map UInt8.toNat = some tr.localtimeIdx := by
    have same := congrArg (fun idxs => idxs[j]?) z.localtimeIdxs
    simp only [List.getElem?_map, there, Option.map_some] at same
    exact same.symm
  have type (i : Nat) (found : Localtime) : z.data.localtimes[i]? = some found ↔
      ∃ w, z.types[i]? = some w ∧ w.type = found := by
    simp only [data, localtimes, List.getElem?_map, Option.map_eq_some_iff]
  rw [(indexed typed inside).usable_iff]
  constructor
  · rintro ⟨first, later⟩
    refine ⟨typed, inside, ?_, ?_⟩
    · intro w front
      exact first w.type ((type 0 _).mpr ⟨w, front, rfl⟩)
    · intro j reached i index w there
      obtain ⟨t, picks⟩ := (z.reached_iff j).mp reached
      have bound : j < z.data.transitions.length := by
        rw [z.transitions_length, ← z.paired]
        exact (List.getElem?_eq_some_iff.mp index).1
      have here := List.getElem?_eq_getElem bound
      have idx := transition j _ here
      rw [Option.mem_def.mp index, Option.map_some, Option.some.injEq] at idx
      exact later t j _ w.type picks here ((type _ _).mpr ⟨w, idx ▸ there, rfl⟩)
  · intro formed
    constructor
    · intro found front
      obtain ⟨w, there, rfl⟩ := (type 0 found).mp front
      exact formed.first w there
    · intro t j tr found picks here chosen
      obtain ⟨i, index, idx⟩ := Option.map_eq_some_iff.mp (transition j tr here)
      obtain ⟨w, there, rfl⟩ := (type _ found).mp chosen
      exact formed.named j ((z.reached_iff j).mpr ⟨t, picks⟩) i index w (idx ▸ there)

def Increasing (z : Zone) : Prop := (z.times.map BitVec.toInt).Pairwise (· < ·)

theorem Increasing.reached (increasing : z.Increasing) {j : Nat} (bound : j < z.times.length) :
    z.Reached j := by
  have ordered : z.data.Increasing ⟨true⟩ := by
    rw [Increasing, ← z.gmttimes, List.pairwise_map] at increasing
    exact increasing
  rw [← z.transitions_length] at bound
  have here := List.getElem?_eq_getElem bound
  refine (z.reached_iff j).mpr ⟨z.data.transitions[j].gmttime, ordered.picks ⟨bound, ?_, ?_⟩⟩
  · intro i tr same found
    cases same
    cases here.symm.trans found
    exact Int.le_refl _
  · intro tr found
    obtain ⟨later, rfl⟩ := List.getElem?_eq_some_iff.mp found
    exact List.pairwise_iff_getElem.mp ordered j (j + 1) (by omega) later (by omega)

/-- A type that a file uses: the first one, or that of a transition. -/
def Uses (z : Zone) (i : Nat) : Prop := i = 0 ∨ ∃ k ∈ z.indices, k.toNat = i

theorem wellFormed_iff (increasing : z.Increasing) : z.WellFormed ↔
    z.types ≠ [] ∧ z.InRange ∧
      ∀ i w, z.types[i]? = some w → z.Uses i → w.abbrind.toNat < z.chars.length := by
  constructor
  · rintro ⟨typed, inside, first, named⟩
    refine ⟨typed, inside, ?_⟩
    rintro i w there (rfl | ⟨k, member, rfl⟩)
    · exact first w there
    · obtain ⟨j, index⟩ := List.mem_iff_getElem?.mp member
      have bound := (List.getElem?_eq_some_iff.mp index).1
      exact named j (increasing.reached (z.paired ▸ bound)) k index w there
  · rintro ⟨typed, inside, named⟩
    refine ⟨typed, inside, ?_, ?_⟩
    · intro w front
      exact named 0 w front (Or.inl rfl)
    · intro j _ i index w there
      exact named i.toNat w there (Or.inr ⟨i, List.mem_of_getElem? index, rfl⟩)

end Zone

/-- TimeZone(zonefile) has only defined behaviour, and leaves an invalid zone or one that
    can be used. -/
def LoadsSafely (zonefile : Option (List UInt8)) : Prop :=
  ∃ tz, ofFile zonefile = .ok tz ∧ (tz.valid = false ∨ ∃ d, tz.data_ = some d ∧ d.Usable)

theorem usable_of_safe {zonefile : Option (List UInt8)} (safe : LoadsSafely zonefile) :
    ∃ d printed, readTimeZoneFile zonefile .empty = .ok (true, d, printed) ∧ d.Usable := by
  obtain ⟨tz, loaded, outcome⟩ := safe
  obtain ⟨⟨ok, d, printed⟩, read, made⟩ := bind_eq_ok.mp loaded
  have always : ok = true := by
    unfold readTimeZoneFile at read
    split at read
    · cases read
      rfl
    · split at read <;> cases read <;> rfl
  subst always
  cases made
  rcases outcome with invalid | ⟨d', same, usable⟩
  · cases invalid
  · cases same
    exact ⟨d, printed, read, usable⟩

/-- Exactly the files that begin with a well formed zone leave a usable one; no file
    leaves an invalid one. In increasing times every transition is reached, so a zone is then
    well formed when its indices are in range and the names of the types it uses begin inside
    the abbreviations. -/
theorem loads_safely_iff (zonefile : Option (List UInt8)) :
    (LoadsSafely zonefile ↔
      ∃ (z : Zone) (rest : List UInt8), zonefile = some (z.bytes ++ rest) ∧ z.WellFormed) ∧
    ∀ z : Zone, z.Increasing → (z.WellFormed ↔ z.types ≠ [] ∧ z.InRange ∧
      ∀ i w, z.types[i]? = some w → z.Uses i → w.abbrind.toNat < z.chars.length) := by
  refine ⟨?_, fun z increasing => Zone.wellFormed_iff increasing⟩
  constructor
  · intro safe
    obtain ⟨d, printed, read, usable⟩ := usable_of_safe safe
    unfold readTimeZoneFile at read
    split at read
    · cases read
      exact absurd rfl usable.nonempty
    · rename_i bytes
      split at read
      · rename_i s loaded
        cases read
        obtain ⟨z, inside, rfl, same⟩ := load_eq_ok.mp loaded
        rw [same] at usable
        have typed : z.types ≠ [] := by
          simpa [Zone.data, Zone.localtimes] using usable.nonempty
        exact ⟨z, s.rest, rfl, (Zone.usable_iff typed inside).mp usable⟩
      · -- What was caught came before the abbreviations, and no name begins inside none.
        rename_i failed
        cases read
        obtain ⟨found, -, begins⟩ := usable.named 0
        rw [load_error failed] at begins
        cases begins
      · cases read
  · rintro ⟨z, rest, rfl, formed⟩
    have loaded : load ⟨z.bytes ++ rest, .empty⟩ = .ok () ⟨rest, z.data⟩ :=
      load_eq_ok.mpr ⟨z, formed.inside, rfl, rfl⟩
    exact ⟨⟨some z.data⟩, by simp [ofFile, readTimeZoneFile, loaded],
      Or.inr ⟨z.data, rfl, (Zone.usable_iff formed.typed formed.inside).mpr formed⟩⟩

def summerZone (i : UInt8) : Zone where
  head := ⟨0x32, List.replicate 15 0, 0, 0, 0, 1, 2, 8, rfl⟩
  times := [100]
  indices := [i]
  types := [⟨0, 0, 0⟩, ⟨3600, 1, 4⟩]
  chars := [0x47, 0x4d, 0x54, 0, 0x42, 0x53, 0x54, 0]
  timecnt := rfl
  paired := rfl
  typecnt := rfl
  charcnt := rfl

theorem loads_safely_summer : LoadsSafely (some ((summerZone 1).bytes ++ [0])) := by
  have increasing : (summerZone 1).Increasing := List.pairwise_singleton _ _
  have inside : (summerZone 1).InRange := by simp [Zone.InRange, summerZone]
  have names : ∀ w ∈ (summerZone 1).types, w.abbrind.toNat < (summerZone 1).chars.length := by
    simp [summerZone]
  refine (loads_safely_iff _).1.mpr ⟨summerZone 1, [0], rfl,
    ((loads_safely_iff none).2 _ increasing).mpr ⟨by simp [summerZone], inside, ?_⟩⟩
  intro i w there _
  exact names w (List.mem_of_getElem? there)

/-- A missing file leaves a valid zone on which the lookup is undefined, and so does a file
    that ends after its head; a type index outside is used unchecked. -/
theorem file_leaves_unusable_zone :
    (∃ tz, ofFile none = .ok tz ∧ tz.valid = true ∧
      toLocalTime id tz 0 = .error "localtimes.front()") ∧
    (∃ tz, ofFile (some (summerZone 1).head.bytes) = .ok tz ∧ tz.valid = true ∧
      toLocalTime id tz 0 = .error "localtimes.front()") ∧
    ofFile (some (summerZone 2).bytes) = .error "data->localtimes[localIdx]" := by
  have truncated : ofFile (some (summerZone 1).head.bytes) = .ok ⟨some .empty⟩ := by decide +kernel
  have outside : ofFile (some (summerZone 2).bytes) = .error "data->localtimes[localIdx]" := by
    decide +kernel
  exact ⟨⟨⟨some .empty⟩, rfl, rfl, rfl⟩, ⟨⟨some .empty⟩, truncated, rfl, rfl⟩, outside⟩

end TimeZone
end Muduo
