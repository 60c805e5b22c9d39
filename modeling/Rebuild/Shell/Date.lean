import Rebuild.Text.Floating
import Rebuild.Timestamp

/-!
# Dates

Times as they are written for tools: seconds since the epoch after an at sign, or words in free order,
such as a calendar date, a time of day, a time zone, and steps from there. `format` writes a time the way
a row of directives says. All times are in universal time.
-/

namespace Rebuild.Shell

/-- A day of the calendar with a time of day. -/
structure Date where
  year : Int
  month : Nat
  day : Nat
  /-- Seconds since midnight. -/
  second : Nat
  nanos : Nat
deriving DecidableEq, Repr

namespace Date

/-- The number of days from the epoch to a day of the calendar. Years are counted from March, so
that a leap day comes last. -/
def daysTo (year month day : Int) : Int :=
  let y := if month ≤ 2 then year - 1 else year
  let m := (month + 9) % 12
  365 * y + y.fdiv 4 - y.fdiv 100 + y.fdiv 400 + (153 * m + 2) / 5 + day - 1 - 719468

/-- The time of a calendar date and seconds after its midnight. -/
def time (year month day seconds : Int) : Timestamp :=
  Timestamp.ofParts (daysTo year month day * 86400 + seconds) 0

/-- The calendar date of a time. -/
def ofTime (t : Timestamp) : Date :=
  let seconds := t.fdiv 1000000000
  let days := seconds.fdiv 86400
  let z := days + 719468
  let era := z.fdiv 146097
  let dayOfEra := z - era * 146097
  let yearOfEra := (dayOfEra - dayOfEra / 1460 + dayOfEra / 36524 - dayOfEra / 146096) / 365
  let dayOfYear := dayOfEra - (365 * yearOfEra + yearOfEra / 4 - yearOfEra / 100)
  let m := (5 * dayOfYear + 2) / 153
  let month := if m < 10 then m + 3 else m - 9
  let year := yearOfEra + era * 400 + if month ≤ 2 then 1 else 0
  ⟨year, month.toNat, (dayOfYear - (153 * m + 2) / 5 + 1).toNat, (seconds - days * 86400).toNat,
    (t - seconds * 1000000000).toNat⟩

def monthNames : List String :=
  ["January", "February", "March", "April", "May", "June", "July", "August", "September", "October",
    "November", "December"]

def dayNames : List String :=
  ["Sunday", "Monday", "Tuesday", "Wednesday", "Thursday", "Friday", "Saturday"]

/-- The place in a list of the name that a word, which may be shortened to three letters, stands for. -/
def named? (names : List String) (word : String) : Option Nat :=
  names.findIdx? fun name =>
    let lower := name.toLower
    lower = word.toLower || (lower.take 3).toString = word.toLower ||
      (3 ≤ word.length && (lower.take word.length).toString = word.toLower && word.length ≤ 4)


/-- The day of the week of a date. -/
def weekday (d : Date) : Nat :=
  ((daysTo d.year d.month d.day + 4) % 7).toNat

/-- The number of days in the year before a date. -/
def yearDay (d : Date) : Nat :=
  (daysTo d.year d.month d.day - daysTo d.year 1 1).toNat

def isLeap (year : Int) : Bool :=
  year % 4 = 0 && (year % 100 ≠ 0 || year % 400 = 0)

/-- The year and the number of a week that begins on Monday and belongs to the year of its Thursday. -/
def isoWeek (d : Date) : Int × Nat :=
  let monday := (d.weekday + 6) % 7
  let week : Int := ((d.yearDay : Int) - monday + 10) / 7
  let weeksIn (year : Int) : Int :=
    let first := (daysTo year 1 1 + 3) % 7
    if first = 3 || (first = 2 && isLeap year) then 53 else 52
  if week < 1 then (d.year - 1, (weeksIn (d.year - 1)).toNat)
  else if weeksIn d.year < week then (d.year + 1, 1)
  else (d.year, week.toNat)

/-! ## Reading -/

/-- A part of a written date. -/
inductive Token where
  | number (sign : Option Char) (digits : String)
  | word (text : String)
  | mark (c : Char)
deriving DecidableEq, Repr

/-- The parts of a written date, in at most `n` steps. -/
def tokens : (n : Nat) → List Char → List Token
  | 0, _ | _, [] => []
  | n + 1, c :: rest =>
    let next := rest.head?.any Char.isDigit
    if c = ' ' || c = ',' || c = '\t' || c = '\n' then tokens n rest
    else if c.isDigit then
      let row := (c :: rest).takeWhile Char.isDigit
      .number none (String.ofList row) :: tokens n ((c :: rest).drop row.length)
    else if (c = '-' || c = '+') && next then
      let row := rest.takeWhile Char.isDigit
      .number (some c) (String.ofList row) :: tokens n (rest.drop row.length)
    else if c.isAlpha then
      let row := (c :: rest).takeWhile fun c => c.isAlpha || c = '.'
      .word (String.ofList (row.filter (· ≠ '.'))).toLower :: tokens n ((c :: rest).drop row.length)
    else .mark c :: tokens n rest

/-- What a written date says: parts of a calendar date and of a day, a day of the week, how far the
time zone is ahead, and steps. -/
structure Said where
  date : Option (Int × Nat × Nat)
  /-- Seconds and nanoseconds. -/
  clock : Option (Nat × Nat)
  zone : Option Int
  /-- A day of the week, and how many weeks on. -/
  weekday : Option (Nat × Int)
  months : Int
  days : Int
  seconds : Int

/-- The nanoseconds that the digits after a decimal point write. -/
def nanosOf (digits : String) : Nat :=
  (String.ofList ((digits.toList ++ List.replicate 9 '0').take 9)).toNat?.getD 0

/-- The months, days and seconds of a unit. -/
def unit? (word : String) : Option (Int × Int × Int) :=
  let word := if word.endsWith "s" then (word.dropEnd 1).toString else word
  match word with
  | "year" => some (12, 0, 0)
  | "month" => some (1, 0, 0)
  | "fortnight" => some (0, 14, 0)
  | "week" => some (0, 7, 0)
  | "day" => some (0, 1, 0)
  | "hour" => some (0, 0, 3600)
  | "minute" | "min" => some (0, 0, 60)
  | "second" | "sec" => some (0, 0, 1)
  | _ => none

/-- What is said after a number of steps of a unit. -/
def Said.add (s : Said) (count : Int) (unit : Int × Int × Int) : Said :=
  { s with
    months := s.months + count * unit.1
    days := s.days + count * unit.2.1
    seconds := s.seconds + count * unit.2.2 }

/-- A number in digits. -/
def value (digits : String) : Nat := digits.toNat?.getD 0

/-- A year of which only two digits may be written. -/
def fullYear (digits : String) : Int :=
  let n := value digits
  if 2 < digits.length then n else if n < 69 then 2000 + n else 1900 + n

/-- The seconds by which a time zone is ahead. -/
def zoneOffset (sign : Char) (digits : String) (minutes : Nat) : Int :=
  let n := value digits
  let seconds : Int := if digits.length ≤ 2 then n * 3600 + minutes * 60
    else n / 100 * 3600 + n % 100 * 60
  if sign = '-' then -seconds else seconds

/-- What is said with a calendar date, if there is such a day. -/
def Said.withDate? (s : Said) (year : Int) (month day : Nat) : Option Said :=
  let length := if month = 2 then (if isLeap year then 29 else 28)
    else if [4, 6, 9, 11].contains month then 30 else 31
  if s.date.isNone && 1 ≤ month && month ≤ 12 && 1 ≤ day && day ≤ length then
    some { s with date := some (year, month, day) }
  else none

/-- What is said with a time of day, if there is such a time. -/
def Said.withClock? (s : Said) (hour minute second nanos : Nat) : Option Said :=
  if s.clock.isNone && hour < 24 && minute < 60 && second < 61 then
    some { s with clock := some (hour * 3600 + minute * 60 + second, nanos) }
  else none

/-- The hour that is meant before or after noon. -/
def halfDay? (hour : Nat) (word : String) : Option Nat :=
  if 1 ≤ hour && hour ≤ 12 && (word = "am" || word = "pm") then
    some (hour % 12 + if word = "pm" then 12 else 0)
  else none

/-- Understands the parts of a written date, in at most `n` steps. -/
def understand : (n : Nat) → Said → List Token → Option Said
  | 0, _, _ => none
  | _, s, [] => some s
  | n + 1, s, parts =>
    match parts with
    | .number none year :: .number (some '-') month :: .number (some '-') day :: rest =>
      match rest with
      | .word "t" :: rest => do
        understand n (← s.withDate? (fullYear year) (value month) (value day)) rest
      | _ => do understand n (← s.withDate? (fullYear year) (value month) (value day)) rest
    | .number none a :: .mark '/' :: .number none b :: .mark '/' :: .number none c :: rest =>
      if 4 ≤ a.length then do understand n (← s.withDate? (value a) (value b) (value c)) rest
      else do understand n (← s.withDate? (fullYear c) (value a) (value b)) rest
    | .number none hour :: .mark ':' :: .number none minute :: rest =>
      let (second, nanos, rest) := match rest with
        | .mark ':' :: .number none second :: .mark '.' :: .number none fraction :: rest =>
          (value second, nanosOf fraction, rest)
        | .mark ':' :: .number none second :: rest => (value second, 0, rest)
        | _ => (0, 0, rest)
      match rest with
      | .word word :: after =>
        match halfDay? (value hour) word with
        | some hour => do understand n (← s.withClock? hour (value minute) second nanos) after
        | none => do understand n (← s.withClock? (value hour) (value minute) second nanos) rest
      | .number (some sign) zone :: .mark ':' :: .number none minutes :: after => do
        let s ← s.withClock? (value hour) (value minute) second nanos
        understand n { s with zone := some (zoneOffset sign zone (value minutes)) } after
      | .number (some sign) zone :: after => do
        let s ← s.withClock? (value hour) (value minute) second nanos
        let isStep := match after with
          | .word word :: _ => (unit? word).isSome
          | _ => false
        if isStep then understand n s rest
        else understand n { s with zone := some (zoneOffset sign zone 0) } after
      | _ => do understand n (← s.withClock? (value hour) (value minute) second nanos) rest
    | .number none day :: .word name :: .number none year :: rest =>
      match named? monthNames name with
      | some month => do
        if rest.head? = some (.mark ':') then
          understand n (← s.withDate? 0 (month + 1) (value day)) (.number none year :: rest)
        else understand n (← s.withDate? (fullYear year) (month + 1) (value day)) rest
      | none => do understand n (← numberAndWord s none day name) (.number none year :: rest)
    | .number none day :: .number (some '-') _ :: _ =>
      if day.length = 8 then do
        understand n (← s.withDate? (value day / 10000) (value day / 100 % 100) (value day % 100))
          parts.tail
      else none
    | .number sign digits :: .word name :: rest =>
      match rest with
      | .word "ago" :: after => do
        let unit ← unit? name
        let count : Int := if sign = some '-' then value digits else -(value digits : Int)
        understand n (s.add count unit) after
      | _ => do understand n (← numberAndWord s sign digits name) rest
    | .number none digits :: rest =>
      if digits.length = 8 then do
        let row := value digits
        understand n (← s.withDate? (row / 10000) (row / 100 % 100) (row % 100)) rest
      else if digits.length = 4 && s.clock.isNone then do
        understand n (← s.withClock? (value digits / 100) (value digits % 100) 0 0) rest
      else if digits.length ≤ 2 && s.clock.isNone then do
        understand n (← s.withClock? (value digits) 0 0 0) rest
      else none
    | .word name :: rest =>
      match named? monthNames name, rest with
      | some month, .number none day :: .number none year :: after =>
        if after.head? = some (.mark ':') then do
          understand n (← s.withDate? 0 (month + 1) (value day)) (.number none year :: after)
        else do understand n (← s.withDate? (fullYear year) (month + 1) (value day)) after
      | some month, .number none day :: after => do
        understand n (← s.withDate? 0 (month + 1) (value day)) after
      | _, _ =>
        match named? dayNames name with
        | some day => understand n { s with weekday := some (day, 0) } rest
        | none =>
          match name, rest with
          | "now", _ | "today", _ => understand n s rest
          | "yesterday", _ => understand n { s with days := s.days - 1 } rest
          | "tomorrow", _ => understand n { s with days := s.days + 1 } rest
          | "utc", _ | "gmt", _ | "z", _ => understand n { s with zone := some 0 } rest
          | "noon", _ => do understand n (← s.withClock? 12 0 0 0) rest
          | "midnight", _ => do understand n (← s.withClock? 0 0 0 0) rest
          | "next", .word unit :: rest => ordinal n s 1 unit rest
          | "last", .word unit :: rest => ordinal n s (-1) unit rest
          | "this", .word unit :: rest => ordinal n s 0 unit rest
          | "a", .word unit :: .word "ago" :: rest => ordinal n s (-1) unit rest
          | _, _ =>
            match unit? name, rest with
            | some unit, .word "ago" :: rest => understand n (s.add (-1) unit) rest
            | some unit, _ => understand n (s.add 1 unit) rest
            | none, _ => none
    | _ => none
where
  /-- What a number and the word after it say together. -/
  numberAndWord (s : Said) (sign : Option Char) (digits name : String) : Option Said :=
    let count : Int := if sign = some '-' then -(value digits : Int) else value digits
    match unit? name, named? monthNames name, halfDay? (value digits) name with
    | some unit, _, _ => some (s.add count unit)
    | none, some month, _ => s.withDate? 0 (month + 1) (value digits)
    | none, none, some hour => s.withClock? hour 0 0 0
    | _, _, _ => none
  /-- What a step to another unit or day of the week says. -/
  ordinal (n : Nat) (s : Said) (count : Int) (unit : String) (rest : List Token) : Option Said :=
    match unit? unit, named? dayNames unit with
    | some unit, _ => understand n (s.add count unit) rest
    | none, some day => understand n { s with weekday := some (day, count) } rest
    | none, none => none

/-- The time that is said, as seen from now. -/
def Said.time (s : Said) (now : Timestamp) : Timestamp :=
  let today := ofTime now
  let (year, month, day) := s.date.getD (today.year, today.month, today.day)
  let year := if year = 0 then today.year else year
  let isBare := s.date.isNone && s.weekday.isNone && s.clock.isNone
  let (seconds, nanos) := s.clock.getD (if isBare then (today.second, today.nanos) else (0, 0))
  let total := year * 12 + (month - 1 : Int) + s.months
  let days := daysTo (total.fdiv 12) (total % 12 + 1) day
  let days := match s.weekday with
    | some (wanted, weeks) =>
      let ahead := ((wanted : Int) - (days + 4) % 7) % 7
      let extra := if weeks = 0 then 0 else if 0 < weeks then (if ahead = 0 then 7 else 0)
        else -7
      days + ahead + extra
    | none => days
  Timestamp.ofParts ((days + s.days) * 86400 + seconds + s.seconds - s.zone.getD 0) nanos

/-- Reads a time that is written in words or after an at sign. -/
def ofText? (now : Timestamp) (text : String) : Option Timestamp :=
  match text.toList.dropWhile (· = ' ') with
  | '@' :: rest =>
    let seconds := rest.takeWhile (· ≠ '.')
    let fraction : Int := nanosOf (String.ofList ((rest.dropWhile (· ≠ '.')).drop 1))
    (String.ofList seconds).toInt?.map fun s =>
      Timestamp.ofParts s 0 + if rest.head? = some '-' then -fraction else fraction
  | [] =>
    let today := ofTime now
    some (time today.year today.month today.day 0)
  | chars =>
    (understand (chars.length + 1) ⟨none, none, none, none, 0, 0, 0⟩
      (tokens chars.length.succ chars)).map (·.time now)

/-- Reads a time that is written as a row of digits: century, year, month, day, hour and minute, two
digits each, and seconds after a point. The century and the year may be left out. -/
def ofDigits? (now : Timestamp) (text : String) : Option Timestamp := do
  let row := text.toList.takeWhile Char.isDigit
  let (second, isGood) := match text.toList.drop row.length with
    | [] => (0, true)
    | ['.', a, b] => (value (String.ofList [a, b]), a.isDigit && b.isDigit)
    | _ => (0, false)
  if !isGood || !([8, 10, 12].contains row.length) then none
  let two (i : Nat) : Nat := value (String.ofList ((row.drop i).take 2))
  let shift := row.length - 8
  let year : Int := match shift with
    | 0 => (ofTime now).year
    | 2 => fullYear (String.ofList (row.take 2))
    | _ => value (String.ofList (row.take 4))
  let s ← (⟨none, none, none, none, 0, 0, 0⟩ : Said).withDate? year (two shift) (two (shift + 2))
  let s ← s.withClock? (two (shift + 4)) (two (shift + 6)) second 0
  return s.time now

/-! ## Writing -/

/-- A number that is filled up to a width. -/
def filled (fill : Option Char) (width : Nat) (n : Nat) : String :=
  match fill with
  | none => toString n
  | some c => String.ofList (List.replicate (width - (toString n).length) c) ++ toString n

/-- Writes a date the way directives say, in at most `n` steps. -/
def formatWithin (t : Timestamp) : (n : Nat) → List Char → String
  | 0, _ | _, [] => ""
  | n + 1, '%' :: rest =>
    let d := ofTime t
    let flags := rest.takeWhile fun c => "-_0^#".toList.contains c
    let row := (rest.drop flags.length).takeWhile Char.isDigit
    let rest := rest.drop (flags.length + row.length)
    let width? := (String.ofList row).toNat?
    let fill (usual : Char) : Option Char :=
      match flags.getLast? with
      | some '-' => none
      | some '_' => some ' '
      | some '0' => some '0'
      | _ => some usual
    let number (usual : Char) (width value : Nat) : String :=
      filled (fill usual) (width?.getD width) value
    let raise (text : String) : String := if flags.contains '^' then text.toUpper
      else if flags.contains '#' then text.toUpper else text
    let padded (text : String) : String :=
      String.ofList (List.replicate (width?.getD 0 - text.length) ' ') ++ raise text
    let hour := d.second / 3600
    let half := if hour % 12 = 0 then 12 else hour % 12
    let minute := d.second / 60 % 60
    let second := d.second % 60
    let weekdayName := (dayNames[d.weekday]?).getD ""
    let monthName := (monthNames[d.month - 1]?).getD ""
    let again (text : String) : String := padded (formatWithin t n text.toList)
    let dayPeriod := if hour < 12 then "AM" else "PM"
    match rest with
    | [] => "%"
    | c :: rest =>
      let shown := match c with
        | '%' => "%"
        | 'n' => "\n"
        | 't' => "\t"
        | 'a' => padded (weekdayName.take 3).toString
        | 'A' => padded weekdayName
        | 'b' | 'h' => padded (monthName.take 3).toString
        | 'B' => padded monthName
        | 'C' => number '0' 2 (d.year.toNat / 100)
        | 'd' => number '0' 2 d.day
        | 'e' => number ' ' 2 d.day
        | 'g' => number '0' 2 (d.isoWeek.1.toNat % 100)
        | 'G' => number '0' 4 d.isoWeek.1.toNat
        | 'H' => number '0' 2 hour
        | 'I' => number '0' 2 half
        | 'j' => number '0' 3 (d.yearDay + 1)
        | 'k' => number ' ' 2 hour
        | 'l' => number ' ' 2 half
        | 'm' => number '0' 2 d.month
        | 'M' => number '0' 2 minute
        | 'N' =>
          let digits := Floating.digits 9 d.nanos
          match width? with
          | some w => (digits.take w).toString
          | none => digits
        | 'p' => padded (if flags.contains '#' then dayPeriod.toLower else dayPeriod)
        | 'P' => padded dayPeriod.toLower
        | 'q' => number '0' 1 ((d.month + 2) / 3)
        | 's' => toString (t.fdiv 1000000000)
        | 'S' => number '0' 2 second
        | 'u' => number '0' 1 (if d.weekday = 0 then 7 else d.weekday)
        | 'U' => number '0' 2 ((d.yearDay + 7 - d.weekday) / 7)
        | 'V' => number '0' 2 d.isoWeek.2
        | 'w' => number '0' 1 d.weekday
        | 'W' => number '0' 2 ((d.yearDay + 7 - (d.weekday + 6) % 7) / 7)
        | 'y' => number '0' 2 (d.year.toNat % 100)
        | 'Y' => number '0' 4 d.year.toNat
        | 'Z' => if flags.contains '#' then "utc" else "UTC"
        | 'z' => "+0000"
        | 'D' | 'x' => again "%m/%d/%y"
        | 'F' => again "%Y-%m-%d"
        | 'T' | 'X' => again "%H:%M:%S"
        | 'R' => again "%H:%M"
        | 'r' => again "%I:%M:%S %p"
        | 'c' => again "%a %b %e %H:%M:%S %Y"
        | ':' => if rest.head? = some 'z' then "+00:00" else "%:"
        | other => String.ofList ['%', other]
      let rest := if c = ':' && rest.head? = some 'z' then rest.tail else rest
      shown ++ formatWithin t n rest
  | n + 1, c :: rest => String.singleton c ++ formatWithin t n rest

/-- Writes a time the way directives say. -/
def format (t : Timestamp) (directives : String) : String :=
  formatWithin t (directives.length + 40) directives.toList

end Date

end Rebuild.Shell
