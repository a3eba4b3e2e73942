import Muduo.Base.LogStreamRuns
import Muduo.Base.TimeZone
import Muduo.Base.TimeZoneUtc

/-!
Logging.cc: the record that a Logger composes. The constructor puts the time, the thread, the
level and the text of errno into a LogStream, then values are streamed into it, and the
destructor adds the place in the source and hands all of it to g_output. The date and time of
the last second are kept by the thread.

gmtime_r is that of the C library. What a Logger finds when it is made, such as the clock and
errno, is part of the call; so is the text that strerror_r yields.
-/
namespace Muduo
open Lib Lib.Signed LogStream
namespace Logger

inductive LogLevel where
  | TRACE | DEBUG | INFO | WARN | ERROR | FATAL
  deriving DecidableEq

def LogLevelName : LogLevel → List Char
  | .TRACE => "TRACE ".toList
  | .DEBUG => "DEBUG ".toList
  | .INFO => "INFO  ".toList
  | .WARN => "WARN  ".toList
  | .ERROR => "ERROR ".toList
  | .FATAL => "FATAL ".toList

/-! ### The time -/

def spaced (width : Nat) (x : Int) : List Char :=
  List.replicate (width - (integerText x).length) ' ' ++ integerText x

def padded (width : Nat) (x : Int) : List Char :=
  if x < 0 then '-' :: zeroPadded (width - 1) x.natAbs else zeroPadded width x.natAbs

def dateText (tm : TimeZone.Tm) : List Char :=
  spaced 4 (tm.tm_year + 1900) ++ padded 2 (tm.tm_mon + 1) ++ padded 2 tm.tm_mday ++
    ' ' :: padded 2 tm.tm_hour ++ ':' :: padded 2 tm.tm_min ++ ':' :: padded 2 tm.tm_sec

structure Thread where
  t_time : List Char := []
  t_lastSecond : Int := 0
  deriving DecidableEq

structure Stamp where
  time : List Char
  us : List Char
  timed : time.length = 17
  short : us.length ≤ 9
  deriving DecidableEq

section
variable (gmtime_r : Int → TimeZone.Tm)

def tmTime (zone : TimeZone) (seconds : Int) : Checked TimeZone.Tm :=
  if zone.valid then do
    let found ← TimeZone.toLocalTime gmtime_r zone seconds
    pure found.tm
  else pure (gmtime_r seconds)

def newTime (zone : TimeZone) (seconds : Int) : Checked (List Char) := do
  let tm_time ← tmTime gmtime_r zone seconds
  assertThat ((dateText tm_time).length = 17) "len == 17"
  pure (snprintf 64 (dateText tm_time))

/-- The suffix has a Z where the zone is invalid; T asserts the length of t_time. -/
def stamp (zone : TimeZone) (t_time : List Char) (microseconds : Int) : Checked Stamp :=
  let us := '.' :: (padded 6 microseconds ++ if zone.valid then [' '] else ['Z', ' '])
  let len := if zone.valid then 8 else 9
  if sized : us.length = len then
    if timed : t_time.length = 17 then
      .ok ⟨t_time, us, timed, by
        simp only [sized, len]
        split <;> decide⟩
    else .error "strlen(str) == len_"
  else .error (if zone.valid then "us.length() == 8" else "us.length() == 9")

def refresh (zone : TimeZone) (thread : Thread) (seconds : Int) : Checked Thread :=
  if seconds ≠ thread.t_lastSecond then do
    let t_time ← newTime gmtime_r zone seconds
    pure ⟨t_time, seconds⟩
  else pure thread

def formatTime (zone : TimeZone) (thread : Thread) (time : Int) : Checked (Thread × Stamp) := do
  let seconds := time.tdiv 1000000
  let microseconds := time.tmod 1000000
  let thread ← refresh gmtime_r zone thread seconds
  let text ← stamp zone thread.t_time microseconds
  pure (thread, text)

end

/-! ### The record -/

def piece (text : List Char) (short : text.length ≤ 2147483647) : Piece :=
  .append ⟨text, text.length, fits_int.mpr (by omega), Int.le_refl _⟩

def literal (text : List Char) : Piece := .cString (some ⟨text ++ [nul], by simp⟩)

structure SourceFile where
  data_ : List Char
  short : data_.length ≤ 2147483647

def SourceFile.new (filename : List Char) (short : filename.length ≤ 2147483647) : SourceFile where
  data_ := (filename.reverse.takeWhile (· ≠ '/')).reverse
  short := by
    have le := (List.takeWhile_prefix (· ≠ '/') (l := filename.reverse)).length_le
    simp only [List.length_reverse] at le ⊢
    omega

structure Impl where
  stream_ : LogStream.Buffer
  level_ : LogLevel
  line_ : Integer true 32
  basename_ : SourceFile

/-- What a Logger finds: the zone, the thread and the time, the array of its stream. -/
structure Place where
  zone : TimeZone
  thread : Thread
  time : Int
  tid : Integer true 32
  data : List Char
  size : data.length = kSmallBuffer

/-- CurrentThread::tidString(), which is "%5d ". -/
def tidString (tid : Integer true 32) : List Char := spaced 5 tid.value ++ [' ']

theorem length_tidString_le (tid : Integer true 32) : (tidString tid).length ≤ 22 := by
  have digits := length_integerText (tid.natAbs_lt (by decide))
  simp only [tidString, spaced, List.length_append, List.length_replicate, List.length_singleton]
  omega

theorem length_LogLevelName (level : LogLevel) : (LogLevelName level).length = 6 := by
  cases level <;> rfl

def errnoPieces (savedErrno : Integer true 32) (strerror : CString) : List Piece :=
  if savedErrno.value ≠ 0 then
    [.cString (some strerror), literal " (errno=".toList, .int savedErrno, literal ") ".toList]
  else []

def Stamp.pieces (s : Stamp) : List Piece :=
  [piece s.time (by rw [s.timed]; decide), piece s.us (Nat.le_trans s.short (by decide))]

section
variable (gmtime_r : Int → TimeZone.Tm) (strerror_r : Integer true 32 → CString)

def Impl.new (at_ : Place) (level : LogLevel) (savedErrno : Integer true 32) (file : SourceFile)
    (line : Integer true 32) : Checked (Thread × Impl) := do
  let (thread, text) ← formatTime gmtime_r at_.zone at_.thread at_.time
  let stream_ ← LogStream.Buffer.shlAll ⟨at_.data, 0⟩ (text.pieces ++
    [piece (tidString at_.tid) (Nat.le_trans (length_tidString_le _) (by decide)),
     piece (LogLevelName level) (by rw [length_LogLevelName]; decide)] ++
    errnoPieces savedErrno (strerror_r savedErrno))
  pure (thread, ⟨stream_, level, line, file⟩)

inductive Arguments where
  | plain (file : SourceFile) (line : Integer true 32)
  | leveled (file : SourceFile) (line : Integer true 32) (level : LogLevel)
  | func (file : SourceFile) (line : Integer true 32) (level : LogLevel)
    (func : Option CString)
  | sys (file : SourceFile) (line : Integer true 32) (toAbort : Bool) (errno : Integer true 32)

def new (at_ : Place) : Arguments → Checked (Thread × Impl)
  | .plain file line => Impl.new gmtime_r strerror_r at_ .INFO ⟨0, by decide⟩ file line
  | .leveled file line level => Impl.new gmtime_r strerror_r at_ level ⟨0, by decide⟩ file line
  | .func file line level func => do
    let (thread, impl) ← Impl.new gmtime_r strerror_r at_ level ⟨0, by decide⟩ file line
    let stream_ ← impl.stream_.shlAll [.cString func, .char ' ']
    pure (thread, { impl with stream_ := stream_ })
  | .sys file line toAbort errno =>
    Impl.new gmtime_r strerror_r at_ (if toAbort then .FATAL else .ERROR) errno file line

end

def finishPieces (basename_ : SourceFile) (line_ : Integer true 32) : List Piece :=
  [literal " - ".toList, piece basename_.data_ basename_.short, .char ':', .int line_, .char '\n']

def Impl.finish (impl : Impl) : Checked Impl := do
  let stream_ ← impl.stream_.shlAll (finishPieces impl.basename_ impl.line_)
  pure { impl with stream_ := stream_ }

/-- What the destructor hands to g_output, and whether it aborts then. -/
def destroy (impl : Impl) : Checked (List Char × Bool) := do
  let impl ← impl.finish
  pure (impl.stream_.data_.take impl.stream_.length.toNat, decide (impl.level_ = .FATAL))

def Impl.stream (impl : Impl) (values : List Piece) : Checked Impl := do
  let stream_ ← impl.stream_.shlAll values
  pure { impl with stream_ := stream_ }

end Logger
end Muduo
