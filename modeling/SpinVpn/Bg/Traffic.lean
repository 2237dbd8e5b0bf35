import Mathlib.Data.List.Basic
import SpinVpn.Database.DirectBoot

/-!
# Traffic — what a session adds to the profile's counters

`TrafficMonitor` (`bg/TrafficMonitor.kt`) keeps the totals that the native client reports and adds
them to the profile's `tx` and `rx`: on every `ACTION_SHUTDOWN` broadcast and once more when the
runner stops (`ProxyInstance.shutdown`).

Each of these calls adds the whole total of the session, because the record of what was already
persisted is a reference to the counter object itself.  So a session counts every byte once exactly
if the totals seen by its broadcasts add up to nothing (`grows_iff_idle`).
-/

namespace SpinVpn
namespace Bg

open Database

/-! ## TrafficMonitor -/

structure TrafficStats where
  txRate : Int64 := 0
  rxRate : Int64 := 0
  txTotal : Int64 := 0
  rxTotal : Int64 := 0
  deriving DecidableEq, Repr

structure TrafficMonitor where
  current : TrafficStats := {}
  out : TrafficStats := {}
  timestampLast : Int64 := 0
  dirty : Bool := false
  /-- Whether `persisted` is set.  It then refers to the object `current`, which is never replaced. -/
  persisted : Bool := false
  deriving DecidableEq, Repr

/-- `ByteBuffer.getLong(index)` in little-endian order -/
def getLong (buffer : List UInt8) (index : Nat) : Int64 :=
  Int64.ofNat (((buffer.drop index).take 8).foldr (fun byte high => byte.toNat + 256 * high) 0)

namespace TrafficMonitor

/-- One connection of the listener; `read` is `none` at the end of the stream.  The result is
`none` for the `IOException` of a message of another length. -/
def acceptInternal (m : TrafficMonitor) (read : Option (List UInt8)) : Option TrafficMonitor :=
  match read with
  | none => some m
  | some buffer =>
      -- any other length is the `IOException` "Unexpected traffic stat length"
      if buffer.length = 16 then
        let tx := getLong buffer 0
        let rx := getLong buffer 8
        let m := if m.current.txTotal ≠ tx then
            { m with current := { m.current with txTotal := tx }, dirty := true } else m
        let m := if m.current.rxTotal ≠ rx then
            { m with current := { m.current with rxTotal := rx }, dirty := true } else m
        some m
      else none

/-- The loop of `LocalSocketListener.run` logs an `IOException` and goes on. -/
def accept (m : TrafficMonitor) (read : Option (List UInt8)) : TrafficMonitor :=
  (m.acceptInternal read).getD m

def requestUpdate (m : TrafficMonitor) (now : Int64) : TrafficMonitor × TrafficStats × Bool :=
  let delta := now - m.timestampLast
  let m := { m with timestampLast := now }
  -- two requests in one millisecond give no rate
  if delta ≠ 0 then
    if m.dirty then
      let out := { m.current with
        txRate := (m.current.txTotal - m.out.txTotal) * 1000 / delta
        rxRate := (m.current.rxTotal - m.out.rxTotal) * 1000 / delta }
      ({ m with out := out, dirty := false }, out, true)
    else
      -- nothing was reported since the last request, so the rates drop to zero
      let updated := m.out.txRate ≠ 0 ∨ m.out.rxRate ≠ 0
      let out := { m.out with txRate := 0, rxRate := 0 }
      ({ m with out := out }, out, updated)
  else (m, m.out, false)

def addTotals (current : TrafficStats) (profile : Profile) : Profile :=
  { profile with tx := profile.tx + current.txTotal, rx := profile.rx + current.rxTotal }

/-- The same for the copy in device storage. -/
def addTotalsDirty (current : TrafficStats) (profile : Profile) : Profile :=
  { addTotals current profile with dirty := true }

/-- `none` where an exception leaves the function. -/
def persistStats (m : TrafficMonitor) (s : Storage) (id : Int) :
    Option (TrafficMonitor × Storage) :=
  -- `persisted == current` compares the object with itself
  if m.persisted = false ∨ m.current = m.current then
    let m := { m with persisted := true }
    match s.getProfile id with
    -- the row was deleted in the meantime
    | some none => some (m, s)
    | some (some profile) =>
        (s.updateProfile (addTotals m.current profile)).map (fun s => (m, s))
    | none =>
        -- the database cannot be opened: the profile in device storage is changed instead
        if s.directBootAware then
          match s.singleDeviceProfile id with
          | none => none
          | some profile =>
              (s.updateDevice (addTotalsDirty m.current profile)).map (fun s => (m, s))
        else none
  else none

end TrafficMonitor

/-! ## Sessions -/

inductive TrafficEvent
  | message (read : Option (List UInt8))
  | requestUpdate (now : Int64)
  /-- `Intent.ACTION_SHUTDOWN` reaches `closeReceiver` -/
  | shutdown
  deriving DecidableEq, Repr

def handle (id : Int) (state : TrafficMonitor × Storage) :
    TrafficEvent → Option (TrafficMonitor × Storage)
  | .message read => some (state.1.accept read, state.2)
  | .requestUpdate now => some ((state.1.requestUpdate now).1, state.2)
  | .shutdown => state.1.persistStats state.2 id

/-- The rest of a session: the events, and then the `ProxyInstance.shutdown` of `stopRunner`. -/
def sessionFrom (id : Int) (state : TrafficMonitor × Storage) :
    List TrafficEvent → Option Storage
  | [] => (state.1.persistStats state.2 id).map Prod.snd
  | event :: events => (handle id state event).bind (fun state => sessionFrom id state events)

def runSession (id : Int) (events : List TrafficEvent) (s : Storage) : Option Storage :=
  sessionFrom id ({}, s) events

/-! ## What was reported -/

structure Totals where
  tx : Int64 := 0
  rx : Int64 := 0
  deriving DecidableEq, Repr

/-- The totals known after an event: those of the last complete message. -/
def Totals.after (last : Totals) : TrafficEvent → Totals
  | .message (some buffer) =>
      if buffer.length = 16 then ⟨getLong buffer 0, getLong buffer 8⟩ else last
  | _ => last

def lastReported (events : List TrafficEvent) : Totals :=
  events.foldl Totals.after {}

/-- The totals known at each broadcast. -/
def totalsAtShutdowns (last : Totals) : List TrafficEvent → List Totals
  | [] => []
  | .shutdown :: events => last :: totalsAtShutdowns last events
  | event :: events => totalsAtShutdowns (last.after event) events

/-! ## One call of persistStats -/

/-- `persistStats` can write profile `p`: the database is open, or direct boot keeps `p` as its only
profile with the id, and without a fallback to look up. -/
def Persistable (s : Storage) (id : Int) (p : Profile) : Prop :=
  s.unlocked = true ∨
    (s.directBootAware = true ∧ s.singleDeviceProfile id = some p ∧ p.udpFallback = none)

theorem persistStats_unlocked (m : TrafficMonitor) {s : Storage} {id : Int} {p : Profile}
    (hopen : s.unlocked = true) (hp : s.stored id = some p) :
    ∃ s', m.persistStats s id = some ({ m with persisted := true }, s') ∧ s'.unlocked = true ∧
      s'.stored id = some (TrafficMonitor.addTotals m.current p).stored := by
  have hget : s.table.get id = some p := by simpa [Storage.stored, hopen] using hp
  have hmem := Table.get_eq_some_iff.1 hget
  have hread : s.getProfile id = some (some p) := by
    simp [Storage.getProfile, hopen, ProfileManager.getProfile, hget]
  set value := TrafficMonitor.addTotals m.current p with hvalue
  have hid : value.id = p.id := rfl
  refine ⟨{ s with table := s.table.update value }, ?_, hopen, ?_⟩
  · have hupdate := ProfileManager.updateProfile_of_mem hmem.1 hid.symm
    simp [TrafficMonitor.persistStats, hread, Storage.updateProfile, ← hvalue, hupdate]
  · have hrow : (s.table.update value).get id = some value.stored := by
      refine Table.get_eq_some_iff.2 ⟨List.mem_map.2 ⟨p, hmem.1, ?_⟩, hmem.2⟩
      rw [Table.overwrite_eq hmem.1 hid.symm hmem.1, if_pos rfl]
    simpa [Storage.stored, hopen] using hrow

theorem singleDeviceProfile_id {s : Storage} {id : Int} {p : Profile}
    (h : s.singleDeviceProfile id = some p) : p.id = id := by
  unfold Storage.singleDeviceProfile at h
  split at h
  · cases h
  · rename_i e _
    split at h
    · rename_i q hq
      cases h
      -- `single` returns an element that passed the filter
      have hmem : p ∈ e.toList.filter (fun it => it.id == id) := by simp [hq]
      simpa using (List.mem_filter.1 hmem).2
    · cases h

theorem persistStats_locked (m : TrafficMonitor) {s : Storage} {id : Int} {p : Profile}
    (hlocked : s.unlocked = false) (haware : s.directBootAware = true)
    (hp : s.singleDeviceProfile id = some p) (hfallback : p.udpFallback = none) :
    m.persistStats s id = some ({ m with persisted := true },
      { s with deviceProfile := some ⟨TrafficMonitor.addTotalsDirty m.current p, none⟩ }) := by
  have hread : s.getProfile id = none := by simp [Storage.getProfile, hlocked]
  simp [TrafficMonitor.persistStats, hread, haware, hp, Storage.updateDevice, Storage.expand,
    TrafficMonitor.addTotalsDirty, TrafficMonitor.addTotals, hfallback]

/-- A call that can write adds the whole totals of the session. -/
theorem persistStats_adds (m : TrafficMonitor) {s : Storage} {id : Int} {p : Profile}
    (hp : s.stored id = some p) (hwrite : Persistable s id p) :
    ∃ m' s' p', m.persistStats s id = some (m', s') ∧ m'.current = m.current ∧
      s'.stored id = some p' ∧ Persistable s' id p' ∧
      p'.tx = p.tx + m.current.txTotal ∧ p'.rx = p.rx + m.current.rxTotal := by
  -- the row of the database, or the copy in device storage
  cases hopen : s.unlocked with
  | true =>
      rcases persistStats_unlocked m hopen hp with ⟨s', hcall, hopen', hp'⟩
      exact ⟨_, s', _, hcall, rfl, hp', Or.inl hopen', rfl, rfl⟩
  | false =>
      rcases hwrite with hwrong | ⟨haware, hsingle, hfallback⟩
      · simp [hopen] at hwrong
      · have hid := singleDeviceProfile_id hsingle
        have hid' : (TrafficMonitor.addTotalsDirty m.current p).id = id := hid
        refine ⟨_, _, TrafficMonitor.addTotalsDirty m.current p,
          persistStats_locked m hopen haware hsingle hfallback, rfl, ?_, ?_, rfl, rfl⟩
        · simp [Storage.stored, hopen, ExpandedProfile.toList, hid']
        · refine Or.inr ⟨haware, ?_, hfallback⟩
          simp [Storage.singleDeviceProfile, ExpandedProfile.toList, hid']

theorem stored_of_single {s : Storage} {id : Int} {p : Profile} (hlocked : s.unlocked = false)
    (h : s.singleDeviceProfile id = some p) : s.stored id = some p := by
  unfold Storage.singleDeviceProfile at h
  split at h
  · cases h
  · rename_i e he
    split at h
    · rename_i q hq
      cases h
      simp [Storage.stored, hlocked, he, ← List.head?_filter, hq]
    · cases h

/-- A call that cannot write throws. -/
theorem persistStats_throws (m : TrafficMonitor) {s : Storage} {id : Int} {p : Profile}
    (hp : s.stored id = some p) (hwrite : ¬ Persistable s id p) : m.persistStats s id = none := by
  -- an open database can always be written, so the device is locked
  have hlocked : s.unlocked = false := by
    cases hopen : s.unlocked with
    | false => rfl
    | true => exact absurd (Or.inl hopen) hwrite
  have hread : s.getProfile id = none := by simp [Storage.getProfile, hlocked]
  -- the device copy is missing, not unique, or has a fallback that `expand` cannot read
  by_cases haware : s.directBootAware = true
  · cases hsingle : s.singleDeviceProfile id with
    | none => simp [TrafficMonitor.persistStats, hread, haware, hsingle]
    | some q =>
        have hqp : q = p := by
          have := stored_of_single hlocked hsingle
          rw [hp] at this
          exact (Option.some.inj this).symm
        cases hfallback : p.udpFallback with
        | none => exact absurd (Or.inr ⟨haware, hqp ▸ hsingle, hfallback⟩) hwrite
        | some f =>
            simp [TrafficMonitor.persistStats, haware, hsingle, hqp, Storage.updateDevice,
              Storage.expand, TrafficMonitor.addTotalsDirty, TrafficMonitor.addTotals, hfallback,
              Storage.getProfile, hlocked]
  · simp [TrafficMonitor.persistStats, hread, haware]

/-! ## A whole session -/

def TrafficMonitor.totals (m : TrafficMonitor) : Totals :=
  ⟨m.current.txTotal, m.current.rxTotal⟩

theorem totals_accept (m : TrafficMonitor) (read : Option (List UInt8)) :
    (m.accept read).totals = m.totals.after (.message read) := by
  cases read with
  | none => rfl
  | some buffer =>
      by_cases hlen : buffer.length = 16
      · simp only [TrafficMonitor.accept, TrafficMonitor.acceptInternal, hlen, if_true,
          Option.getD_some, Totals.after, TrafficMonitor.totals]
        -- each counter is written only where it differs, which changes nothing else
        by_cases htx : m.current.txTotal = getLong buffer 0 <;>
          by_cases hrx : m.current.rxTotal = getLong buffer 8 <;> simp [htx, hrx]
      · simp [TrafficMonitor.accept, TrafficMonitor.acceptInternal, hlen, Totals.after]

theorem current_requestUpdate (m : TrafficMonitor) (now : Int64) :
    (m.requestUpdate now).1.current = m.current := by
  simp only [TrafficMonitor.requestUpdate]
  split
  · split <;> rfl
  · rfl

def sumTx (l : List Totals) : Int64 :=
  (l.map Totals.tx).sum

def sumRx (l : List Totals) : Int64 :=
  (l.map Totals.rx).sum

/-- The profile after a session has every broadcast's totals added, and then the last ones. -/
theorem sessionFrom_adds (id : Int) (events : List TrafficEvent) :
    ∀ {m : TrafficMonitor} {s : Storage} {p : Profile}, s.stored id = some p →
      Persistable s id p →
      ∃ s' p', sessionFrom id (m, s) events = some s' ∧ s'.stored id = some p' ∧
        p'.tx = p.tx + (sumTx (totalsAtShutdowns m.totals events) +
          (events.foldl Totals.after m.totals).tx) ∧
        p'.rx = p.rx + (sumRx (totalsAtShutdowns m.totals events) +
          (events.foldl Totals.after m.totals).rx) := by
  induction events with
  | nil =>
      intro m s p hp hwrite
      rcases persistStats_adds m hp hwrite with ⟨m', s', p', hcall, _, hp', _, htx, hrx⟩
      refine ⟨s', p', by simp [sessionFrom, hcall], hp', ?_, ?_⟩
      · simpa [totalsAtShutdowns, sumTx, TrafficMonitor.totals] using htx
      · simpa [totalsAtShutdowns, sumRx, TrafficMonitor.totals] using hrx
  | cons event events ih =>
      intro m s p hp hwrite
      cases event with
      | message read =>
          -- messages and requests do not touch the storage
          have := ih (m := m.accept read) hp hwrite
          rw [totals_accept] at this
          simpa [sessionFrom, handle, totalsAtShutdowns] using this
      | requestUpdate now =>
          have hsame : (m.requestUpdate now).1.totals = m.totals := by
            simp [TrafficMonitor.totals, current_requestUpdate]
          have := ih (m := (m.requestUpdate now).1) hp hwrite
          rw [hsame] at this
          simpa [sessionFrom, handle, totalsAtShutdowns, Totals.after] using this
      | shutdown =>
          rcases persistStats_adds m hp hwrite with ⟨m', s', p', hcall, hcur, hp', hwrite', htx, hrx⟩
          have hsame : m'.totals = m.totals := by simp [TrafficMonitor.totals, hcur]
          rcases ih (m := m') hp' hwrite' with ⟨s'', p'', hsession, hp'', htx', hrx'⟩
          -- the totals stay in the monitor, so the rest of the session adds them once more
          rw [hsame] at htx' hrx'
          refine ⟨s'', p'', by simpa [sessionFrom, handle, hcall] using hsession, hp'', ?_, ?_⟩
          · rw [htx', htx]
            simp [totalsAtShutdowns, sumTx, TrafficMonitor.totals, Totals.after, Int64.add_assoc]
          · rw [hrx', hrx]
            simp [totalsAtShutdowns, sumRx, TrafficMonitor.totals, Totals.after, Int64.add_assoc]

theorem sessionFrom_throws (id : Int) (events : List TrafficEvent) :
    ∀ {m : TrafficMonitor} {s : Storage} {p : Profile}, s.stored id = some p →
      ¬ Persistable s id p → sessionFrom id (m, s) events = none := by
  induction events with
  | nil =>
      intro m s p hp hwrite
      simp [sessionFrom, persistStats_throws m hp hwrite]
  | cons event events ih =>
      intro m s p hp hwrite
      cases event with
      | message read => simpa [sessionFrom, handle] using ih hp hwrite
      | requestUpdate now => simpa [sessionFrom, handle] using ih hp hwrite
      | shutdown => simp [sessionFrom, handle, persistStats_throws m hp hwrite]

/-- The session ends, and the counters of profile `p` have grown by the last reported totals. -/
def Grows (id : Int) (events : List TrafficEvent) (s : Storage) (p : Profile) : Prop :=
  ∃ s' p', runSession id events s = some s' ∧ s'.stored id = some p' ∧
    p'.tx = p.tx + (lastReported events).tx ∧ p'.rx = p.rx + (lastReported events).rx

/-- The totals that the broadcasts of a session see add up to nothing. -/
def Idle (events : List TrafficEvent) : Prop :=
  sumTx (totalsAtShutdowns {} events) = 0 ∧ sumRx (totalsAtShutdowns {} events) = 0

theorem add_sum_eq_iff (a b c : Int64) : a + (b + c) = a + c ↔ b = 0 := by
  constructor
  · intro h
    grind
  · intro h
    simp [h]

/-- A session counts every reported byte exactly once if and only if its broadcasts are idle and
the profile can be written at all. -/
theorem grows_iff_idle (id : Int) (events : List TrafficEvent) {s : Storage} {p : Profile}
    (hp : s.stored id = some p) :
    Grows id events s p ↔ Persistable s id p ∧ Idle events := by
  -- a session that can write adds the sums of `sessionFrom_adds`; any other one throws
  by_cases hwrite : Persistable s id p
  · rcases sessionFrom_adds id events (m := {}) hp hwrite with ⟨s', p', hsession, hp', htx, hrx⟩
    have hgrows : Grows id events s p ↔
        p'.tx = p.tx + (lastReported events).tx ∧ p'.rx = p.rx + (lastReported events).rx := by
      constructor
      · rintro ⟨s₁, p₁, hsession₁, hp₁, htx₁, hrx₁⟩
        -- a session has one result
        rw [runSession, hsession] at hsession₁
        cases hsession₁
        rw [hp'] at hp₁
        cases hp₁
        exact ⟨htx₁, hrx₁⟩
      · rintro ⟨htx₁, hrx₁⟩
        exact ⟨s', p', hsession, hp', htx₁, hrx₁⟩
    rw [hgrows, htx, hrx, Idle]
    simp only [hwrite, true_and]
    exact and_congr (add_sum_eq_iff _ _ _) (add_sum_eq_iff _ _ _)
  · simp only [hwrite, false_and, iff_false]
    rintro ⟨s', p', hsession, _⟩
    rw [runSession, sessionFrom_throws id events hp hwrite] at hsession
    cases hsession

/-- A message that reports the totals `tx` and `rx`, both below 256. -/
def report (tx rx : UInt8) : TrafficEvent :=
  .message (some ([tx, 0, 0, 0, 0, 0, 0, 0] ++ [rx, 0, 0, 0, 0, 0, 0, 0]))

/-- An open database with one profile that has seen some traffic. -/
def onlyProfile : Storage where
  table := (ProfileManager.createProfile Table.empty { host := "a", tx := 10, rx := 20 }).1
  deviceProfile := none
  directBootAware := false
  unlocked := true

theorem grows_iff_idle_broadcast :
    ∃ p, onlyProfile.stored 1 = some p ∧ p.tx = 10 ∧
      Grows 1 [.shutdown, report 3 4, .message none, report 7 9] onlyProfile p := by
  refine ⟨_, rfl, rfl, (grows_iff_idle 1 _ rfl).2 ⟨Or.inl rfl, ?_⟩⟩
  exact ⟨by decide, by decide⟩

/-- A broadcast after the first report: its bytes are counted again when the runner stops. -/
theorem lateShutdown_not_grows :
    ∃ p, onlyProfile.stored 1 = some p ∧
      (lastReported [report 7 9, .shutdown]).tx = 7 ∧
      (∃ s' p', runSession 1 [report 7 9, .shutdown] onlyProfile = some s' ∧
        s'.stored 1 = some p' ∧ p'.tx = p.tx + 14) ∧
      ¬ Grows 1 [report 7 9, .shutdown] onlyProfile p := by
  refine ⟨_, rfl, by decide, ⟨_, _, rfl, rfl, by decide⟩, ?_⟩
  rintro ⟨s', p', hsession, hp', htx, _⟩
  cases hsession
  cases hp'
  exact absurd htx (by decide)

end Bg
end SpinVpn
