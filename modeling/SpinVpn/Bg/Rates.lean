import Mathlib.Data.List.Chain
import SpinVpn.Bg.Traffic

/-!
# Rates — what the traffic monitor reports

`TrafficMonitor.requestUpdate` is polled for the rates while the native client keeps sending its
totals.  A poll that sees elapsed time hands out the latest totals, whether or not any message came
since the last one: `dirty` is only false where nothing is left to hand out (`Synced`).  The rates
of all polls account for no more bytes than were received, since each is rounded down and the
differences it is taken from add up (`reports_spec`).
-/

namespace SpinVpn
namespace Bg

/-! ## Polls -/

inductive Poll
  | message (read : Option (List UInt8))
  | requestUpdate (now : Int64)
  deriving DecidableEq, Repr

def Poll.event : Poll → TrafficEvent
  | .message read => .message read
  | .requestUpdate now => .requestUpdate now

structure Report where
  /-- the milliseconds since the last call -/
  elapsed : Int64
  /-- what is returned -/
  stats : TrafficStats
  updated : Bool
  /-- the totals of the monitor's `out` after the call -/
  outTotals : Totals
  /-- the totals of the last message before the call -/
  latest : Totals
  deriving DecidableEq, Repr

def TrafficStats.totals (s : TrafficStats) : Totals :=
  ⟨s.txTotal, s.rxTotal⟩

/-- The totals known after some polls, if they were `last` before them. -/
def latestFrom (last : Totals) (polls : List Poll) : Totals :=
  polls.foldl (fun last poll => last.after poll.event) last

/-- What the calls of `requestUpdate` return. -/
def reportsFrom (m : TrafficMonitor) (last : Totals) : List Poll → List Report
  | [] => []
  | .message read :: polls => reportsFrom (m.accept read) (last.after (.message read)) polls
  | .requestUpdate now :: polls =>
      let r := m.requestUpdate now
      { elapsed := now - m.timestampLast
        stats := r.2.1
        updated := r.2.2
        outTotals := r.1.out.totals
        latest := last } :: reportsFrom r.1 last polls

def reports (polls : List Poll) : List Report :=
  reportsFrom {} {} polls

/-! ## The clock and the totals -/

/-- `SystemClock.elapsedRealtime` does not go back. -/
def ClockFrom (now : Int64) : List Poll → Prop
  | [] => True
  | .message _ :: polls => ClockFrom now polls
  | .requestUpdate now' :: polls => now ≤ now' ∧ ClockFrom now' polls

/-- The totals of the complete messages. -/
def received : List Poll → List Totals
  | [] => []
  | .message (some buffer) :: polls =>
      if buffer.length = 16 then ⟨getLong buffer 0, getLong buffer 8⟩ :: received polls
      else received polls
  | _ :: polls => received polls

inductive Direction
  | tx
  | rx
  deriving DecidableEq, Repr

def TrafficStats.rate (s : TrafficStats) : Direction → Int64
  | .tx => s.txRate
  | .rx => s.rxRate

def Totals.total (t : Totals) : Direction → Int64
  | .tx => t.tx
  | .rx => t.rx

/-- The bound is the 53rd power of two; a thousand times a difference still fits `Int64`. -/
def Totals.Small (t : Totals) : Prop :=
  ∀ d, 0 ≤ (t.total d).toInt ∧ (t.total d).toInt < 9007199254740992

def Totals.Le (t t' : Totals) : Prop :=
  ∀ d, (t.total d).toInt ≤ (t'.total d).toInt

/-! ## One poll -/

namespace TrafficMonitor

variable (m : TrafficMonitor)

/-- What a poll hands out after `delta` milliseconds if the monitor is dirty. -/
def fresh (delta : Int64) : TrafficStats :=
  { m.current with
    txRate := (m.current.txTotal - m.out.txTotal) * 1000 / delta
    rxRate := (m.current.rxTotal - m.out.rxTotal) * 1000 / delta }

/-- What it hands out otherwise. -/
def stale : TrafficStats :=
  { m.out with txRate := 0, rxRate := 0 }

theorem requestUpdate_cases (now : Int64) :
    (now - m.timestampLast = 0 ∧
      m.requestUpdate now = ({ m with timestampLast := now }, m.out, false)) ∨
    (now - m.timestampLast ≠ 0 ∧ m.dirty = true ∧
      m.requestUpdate now =
        ({ m with timestampLast := now, out := m.fresh (now - m.timestampLast), dirty := false },
          m.fresh (now - m.timestampLast), true)) ∨
    (now - m.timestampLast ≠ 0 ∧ m.dirty = false ∧
      m.requestUpdate now =
        ({ m with timestampLast := now, out := m.stale }, m.stale,
          decide (m.out.txRate ≠ 0 ∨ m.out.rxRate ≠ 0))) := by
  rw [requestUpdate]
  by_cases hdelta : now - m.timestampLast = 0
  · exact Or.inl ⟨hdelta, if_neg (not_not_intro hdelta)⟩
  · refine Or.inr ?_
    cases hdirty : m.dirty with
    | true =>
        refine Or.inl ⟨hdelta, rfl, ?_⟩
        simp only [ne_eq, hdelta, not_false_eq_true, if_true]
        rfl
    | false =>
        refine Or.inr ⟨hdelta, rfl, ?_⟩
        simp only [ne_eq, hdelta, not_false_eq_true, if_true, Bool.false_eq_true, if_false]
        rfl

variable {m} in
theorem stale_eq (htx : m.out.txRate = 0) (hrx : m.out.rxRate = 0) : m.stale = m.out := by
  rcases m with ⟨_, ⟨_, _, _, _⟩, _, _, _⟩
  simp only at htx hrx
  rw [stale, htx, hrx]

/-- A message changes nothing but the totals, and sets the flag where it changes them. -/
theorem accept_spec (read : Option (List UInt8)) :
    (m.accept read).out = m.out ∧ (m.accept read).timestampLast = m.timestampLast ∧
      ((m.accept read).dirty = false → m.dirty = false ∧ (m.accept read).totals = m.totals) := by
  cases read with
  | none => exact ⟨rfl, rfl, fun h => ⟨h, rfl⟩⟩
  | some buffer =>
      by_cases hlen : buffer.length = 16
      · simp only [accept, acceptInternal, hlen, if_true, Option.getD_some, totals]
        by_cases htx : m.current.txTotal = getLong buffer 0 <;>
          by_cases hrx : m.current.rxTotal = getLong buffer 8 <;> simp [htx, hrx]
      · have hsame : m.accept (some buffer) = m := by
          simp [accept, acceptInternal, hlen]
        rw [hsame]
        exact ⟨rfl, rfl, fun h => ⟨h, rfl⟩⟩

/-- The monitor knows the last totals, and has handed them out unless it is dirty. -/
structure Synced (last : Totals) : Prop where
  current : m.totals = last
  out : m.dirty = false → m.out.totals = last

variable {m} {last : Totals}

theorem Synced.accept (h : m.Synced last) (read : Option (List UInt8)) :
    (m.accept read).Synced (last.after (.message read)) := by
  obtain ⟨hout, -, hclean⟩ := m.accept_spec read
  have hcurrent : (m.accept read).totals = last.after (.message read) := by
    rw [totals_accept, h.current]
  refine ⟨hcurrent, ?_⟩
  intro hdirty
  obtain ⟨hbefore, hsame⟩ := hclean hdirty
  calc
    (m.accept read).out.totals = last := by rw [hout, h.out hbefore]
    _ = m.totals := h.current.symm
    _ = (m.accept read).totals := hsame.symm
    _ = last.after (.message read) := hcurrent

/-- After a poll that sees elapsed time the totals are handed out. -/
theorem Synced.requestUpdate (h : m.Synced last) (now : Int64) :
    (m.requestUpdate now).1.Synced last ∧
      (now - m.timestampLast ≠ 0 → (m.requestUpdate now).1.out.totals = last) := by
  rcases m.requestUpdate_cases now with ⟨hdelta, heq⟩ | ⟨-, -, heq⟩ | ⟨-, hdirty, heq⟩
  · rw [heq]
    exact ⟨⟨h.current, h.out⟩, fun hne => absurd hdelta hne⟩
  · rw [heq]
    exact ⟨⟨h.current, fun _ => h.current⟩, fun _ => h.current⟩
  · rw [heq]
    exact ⟨⟨h.current, fun _ => h.out hdirty⟩, fun _ => h.out hdirty⟩

end TrafficMonitor

/-! ## All polls -/

section Reports

variable {m : TrafficMonitor} {last : Totals}

theorem outTotals_reportsFrom (polls : List Poll) :
    ∀ (m : TrafficMonitor) (last : Totals), m.Synced last →
      ∀ r ∈ reportsFrom m last polls, r.elapsed ≠ 0 → r.outTotals = r.latest := by
  induction polls with
  | nil =>
      intro m last _ r hr
      cases hr
  | cons poll polls ih =>
      intro m last hsynced r hr
      cases poll with
      | message read => exact ih _ _ (hsynced.accept read) r hr
      | requestUpdate now =>
          obtain ⟨hnext, hout⟩ := hsynced.requestUpdate now
          rcases List.mem_cons.1 hr with rfl | hr
          · exact hout
          · exact ih _ _ hnext r hr

/-- A poll that reports nothing new returns what the poll before it returned. -/
def Repeats (r r' : Report) : Prop :=
  r'.updated = false → r'.stats = r.stats

theorem stats_requestUpdate (m : TrafficMonitor) (now : Int64) :
    (m.requestUpdate now).2.1 = (m.requestUpdate now).1.out ∧
      ((m.requestUpdate now).2.2 = false → (m.requestUpdate now).2.1 = m.out) := by
  rcases m.requestUpdate_cases now with ⟨-, heq⟩ | ⟨-, -, heq⟩ | ⟨-, -, heq⟩
  · rw [heq]
    exact ⟨rfl, fun _ => rfl⟩
  · rw [heq]
    exact ⟨rfl, fun h => by cases h⟩
  · rw [heq]
    refine ⟨rfl, ?_⟩
    intro hsame
    simp only [decide_eq_false_iff_not, not_or, not_not] at hsame
    exact TrafficMonitor.stale_eq hsame.1 hsame.2

theorem isChain_reportsFrom (polls : List Poll) :
    ∀ (m : TrafficMonitor) (last : Totals),
      (reportsFrom m last polls).IsChain Repeats ∧
        ∀ r ∈ (reportsFrom m last polls).head?, r.updated = false → r.stats = m.out := by
  induction polls with
  | nil =>
      intro m last
      exact ⟨List.IsChain.nil, fun r hr => by cases hr⟩
  | cons poll polls ih =>
      intro m last
      cases poll with
      | message read =>
          obtain ⟨hchain, hfirst⟩ := ih (m.accept read) (last.after (.message read))
          rw [(m.accept_spec read).1] at hfirst
          exact ⟨hchain, hfirst⟩
      | requestUpdate now =>
          obtain ⟨hchain, hfirst⟩ := ih (m.requestUpdate now).1 last
          obtain ⟨hstats, hsame⟩ := stats_requestUpdate m now
          constructor
          · refine hchain.cons ?_
            intro r hr hupdated
            exact (hfirst r hr hupdated).trans hstats.symm
          · intro r hr
            cases hr
            exact hsame

end Reports

/-! ## What the rates account for -/

section Rounding

variable {c o delta : Int64}

theorem toInt_sub_of_le (ho : 0 ≤ o.toInt) (h : o.toInt ≤ c.toInt) :
    (c - o).toInt = c.toInt - o.toInt := by
  have hc := c.toInt_lt
  rw [Int64.toInt_sub]
  exact Int.bmod_eq_of_le (by omega) (by omega)

/-- A rate is rounded down, and below 2⁵³ nothing overflows. -/
theorem toInt_rate (ho : 0 ≤ o.toInt) (h : o.toInt ≤ c.toInt) (hc : c.toInt < 9007199254740992)
    (hdelta : 0 < delta.toInt) :
    0 ≤ ((c - o) * 1000 / delta).toInt ∧
      ((c - o) * 1000 / delta).toInt * delta.toInt ≤ 1000 * (c.toInt - o.toInt) := by
  have hmul : ((c - o) * 1000).toInt = (c.toInt - o.toInt) * 1000 := by
    have hthousand : (1000 : Int64).toInt = 1000 := by decide
    rw [Int64.toInt_mul, toInt_sub_of_le ho h, hthousand]
    exact Int.bmod_eq_of_le (by omega) (by omega)
  have hmin : (c - o) * 1000 ≠ Int64.minValue := by
    intro heq
    have hneg : (Int64.minValue).toInt < 0 := by decide
    rw [← heq, hmul] at hneg
    omega
  have hdiv : ((c - o) * 1000 / delta).toInt = (c.toInt - o.toInt) * 1000 / delta.toInt := by
    rw [Int64.toInt_div_of_ne_left _ _ hmin, hmul]
    exact Int.tdiv_eq_ediv_of_nonneg (by omega)
  rw [hdiv]
  constructor
  · exact Int.ediv_nonneg (by omega) (Int.le_of_lt hdelta)
  · calc
      (c.toInt - o.toInt) * 1000 / delta.toInt * delta.toInt ≤ (c.toInt - o.toInt) * 1000 :=
        Int.ediv_mul_le _ (Int.ne_of_gt hdelta)
      _ = 1000 * (c.toInt - o.toInt) := Int.mul_comm _ _

end Rounding

namespace TrafficMonitor

/-- What keeps the rates from being negative: the totals handed out are not ahead of the totals
received. -/
structure Metered (m : TrafficMonitor) : Prop where
  clock : 0 ≤ m.timestampLast.toInt
  small : m.totals.Small
  out_nonneg : ∀ d, 0 ≤ (m.out.totals.total d).toInt
  out_le : m.out.totals.Le m.totals
  rate_nonneg : ∀ d, 0 ≤ (m.out.rate d).toInt

variable {m : TrafficMonitor}

theorem Metered.accept (h : m.Metered) {read : Option (List UInt8)}
    (hsmall : (m.accept read).totals.Small) (hle : m.totals.Le (m.accept read).totals) :
    (m.accept read).Metered := by
  obtain ⟨hout, hclock, -⟩ := m.accept_spec read
  constructor
  · rw [hclock]
    exact h.clock
  · exact hsmall
  · rw [hout]
    exact h.out_nonneg
  · rw [hout]
    exact fun d => Int.le_trans (h.out_le d) (hle d)
  · rw [hout]
    exact h.rate_nonneg

theorem rate_fresh (m : TrafficMonitor) (delta : Int64) (d : Direction) :
    (m.fresh delta).rate d = (m.totals.total d - m.out.totals.total d) * 1000 / delta := by
  cases d with
  | tx => rfl
  | rx => rfl

theorem rate_stale (m : TrafficMonitor) (d : Direction) : m.stale.rate d = 0 := by
  cases d with
  | tx => rfl
  | rx => rfl

/-- A poll accounts for what it newly hands out, and for no more. -/
theorem Metered.requestUpdate (h : m.Metered) {now : Int64} (hnow : m.timestampLast ≤ now) :
    (m.requestUpdate now).1.Metered ∧
      ∀ d, 0 ≤ ((m.requestUpdate now).2.1.rate d).toInt ∧
        ((m.requestUpdate now).2.1.rate d).toInt * (now - m.timestampLast).toInt ≤
          1000 * (((m.requestUpdate now).1.out.totals.total d).toInt -
            (m.out.totals.total d).toInt) := by
  have hclock := h.clock
  have hle := Int64.le_iff_toInt_le.1 hnow
  have hnonneg : 0 ≤ now.toInt := Int.le_trans hclock hle
  have hzero : (0 : Int64).toInt = 0 := by decide
  rcases m.requestUpdate_cases now with ⟨hdelta, heq⟩ | ⟨hdelta, -, heq⟩ | ⟨-, -, heq⟩
  · rw [heq]
    refine ⟨⟨hnonneg, h.small, h.out_nonneg, h.out_le, h.rate_nonneg⟩, ?_⟩
    intro d
    refine ⟨h.rate_nonneg d, ?_⟩
    refine Int.le_of_eq ?_
    rw [hdelta, hzero, Int.mul_zero, Int.sub_self, Int.mul_zero]
  · have hpos : 0 < (now - m.timestampLast).toInt := by
      have hne : (now - m.timestampLast).toInt ≠ 0 := by
        intro hnil
        exact hdelta (Int64.toInt_inj.1 (hnil.trans hzero.symm))
      rw [toInt_sub_of_le hclock hle] at hne ⊢
      omega
    have hrate : ∀ d, 0 ≤ ((m.fresh (now - m.timestampLast)).rate d).toInt ∧
        ((m.fresh (now - m.timestampLast)).rate d).toInt * (now - m.timestampLast).toInt ≤
          1000 * ((m.totals.total d).toInt - (m.out.totals.total d).toInt) := by
      intro d
      rw [rate_fresh]
      exact toInt_rate (h.out_nonneg d) (h.out_le d) (h.small d).2 hpos
    rw [heq]
    refine ⟨⟨hnonneg, h.small, fun d => (h.small d).1, fun d => Int.le_refl _,
      fun d => (hrate d).1⟩, hrate⟩
  · rw [heq]
    have hrate : ∀ d, 0 ≤ (m.stale.rate d).toInt := by
      intro d
      refine Int.le_of_eq ?_
      rw [rate_stale, hzero]
    refine ⟨⟨hnonneg, h.small, h.out_nonneg, h.out_le, hrate⟩, ?_⟩
    intro d
    refine ⟨hrate d, ?_⟩
    have hsame : m.stale.totals = m.out.totals := rfl
    refine Int.le_of_eq ?_
    rw [rate_stale, hzero, Int.zero_mul, hsame, Int.sub_self, Int.mul_zero]

end TrafficMonitor

/-- A message is complete, or changes nothing. -/
theorem message_cases (m : TrafficMonitor) (read : Option (List UInt8)) (polls : List Poll) :
    received (.message read :: polls) = (m.accept read).totals :: received polls ∨
      received (.message read :: polls) = received polls ∧ m.accept read = m := by
  cases read with
  | none => exact Or.inr ⟨rfl, rfl⟩
  | some buffer =>
      by_cases hlen : buffer.length = 16
      · refine Or.inl ?_
        rw [received, if_pos hlen, totals_accept, Totals.after, if_pos hlen]
      · refine Or.inr ⟨?_, ?_⟩
        · rw [received, if_neg hlen]
        · simp [TrafficMonitor.accept, TrafficMonitor.acceptInternal, hlen]

/-- The sum of rate times elapsed time. -/
def credited (d : Direction) : List Report → Int
  | [] => 0
  | r :: rs => (r.stats.rate d).toInt * r.elapsed.toInt + credited d rs

theorem reportsFrom_message (m : TrafficMonitor) (read : Option (List UInt8)) (polls : List Poll) :
    reportsFrom m m.totals (.message read :: polls) =
      reportsFrom (m.accept read) (m.accept read).totals polls := by
  rw [reportsFrom, totals_accept]

theorem latestFrom_message (m : TrafficMonitor) (read : Option (List UInt8)) (polls : List Poll) :
    latestFrom m.totals (.message read :: polls) = latestFrom (m.accept read).totals polls := by
  rw [totals_accept]
  rfl

/-- A poll reads the clock, and leaves the totals as they are. -/
theorem requestUpdate_frame (m : TrafficMonitor) (now : Int64) :
    (m.requestUpdate now).1.timestampLast = now ∧ (m.requestUpdate now).1.totals = m.totals := by
  rcases m.requestUpdate_cases now with ⟨-, heq⟩ | ⟨-, -, heq⟩ | ⟨-, -, heq⟩
  · rw [heq]
    exact ⟨rfl, rfl⟩
  · rw [heq]
    exact ⟨rfl, rfl⟩
  · rw [heq]
    exact ⟨rfl, rfl⟩

/-- The induction is on the polls still to come: what they account for is the difference between
the totals at the end and those handed out before. -/
theorem credited_reportsFrom (polls : List Poll) :
    ∀ m : TrafficMonitor, m.Metered → ClockFrom m.timestampLast polls →
      (m.totals :: received polls).IsChain Totals.Le → (∀ t ∈ received polls, t.Small) →
      ∀ d, (∀ r ∈ reportsFrom m m.totals polls, 0 ≤ (r.stats.rate d).toInt) ∧
        credited d (reportsFrom m m.totals polls) ≤
          1000 * (((latestFrom m.totals polls).total d).toInt - (m.out.totals.total d).toInt) := by
  induction polls with
  | nil =>
      intro m hm _ _ _ d
      refine ⟨fun r hr => absurd hr List.not_mem_nil, ?_⟩
      have hle := hm.out_le d
      have hcredited : credited d (reportsFrom m m.totals []) = 0 := rfl
      have hlatest : latestFrom m.totals [] = m.totals := rfl
      rw [hcredited, hlatest]
      omega
  | cons poll polls ih =>
      intro m hm hclock hchain hsmall d
      cases poll with
      | message read =>
          obtain ⟨hout, hsame, -⟩ := m.accept_spec read
          have hclock' : ClockFrom (m.accept read).timestampLast polls := by
            rw [hsame]
            exact hclock
          rw [reportsFrom_message, latestFrom_message, ← hout]
          rcases message_cases m read polls with hreceived | ⟨hreceived, heq⟩
          · rw [hreceived] at hchain hsmall
            rw [List.isChain_cons_cons] at hchain
            have hnext := hm.accept (hsmall _ List.mem_cons_self) hchain.1
            exact ih _ hnext hclock' hchain.2 (fun t ht => hsmall t (List.mem_cons_of_mem _ ht)) d
          · rw [hreceived] at hchain hsmall
            rw [heq] at hclock' ⊢
            exact ih _ hm hclock' hchain hsmall d
      | requestUpdate now =>
          obtain ⟨hnext, hreport⟩ := hm.requestUpdate hclock.1
          obtain ⟨htime, htotals⟩ := requestUpdate_frame m now
          have hclock' : ClockFrom (m.requestUpdate now).1.timestampLast polls := by
            rw [htime]
            exact hclock.2
          have hrest := ih _ hnext hclock' (by rw [htotals]; exact hchain) hsmall d
          rw [htotals] at hrest
          obtain ⟨hrate, hcredit⟩ := hreport d
          constructor
          · intro r hr
            rcases List.mem_cons.1 hr with rfl | hr
            · exact hrate
            · exact hrest.1 r hr
          · have hsum : credited d (reportsFrom m m.totals (.requestUpdate now :: polls)) =
                ((m.requestUpdate now).2.1.rate d).toInt * (now - m.timestampLast).toInt +
                  credited d (reportsFrom (m.requestUpdate now).1 m.totals polls) := by
              rw [reportsFrom, credited]
            have hlatest : latestFrom m.totals (.requestUpdate now :: polls) =
                latestFrom m.totals polls := rfl
            have hend := hrest.2
            rw [hsum, hlatest]
            omega

/-! ## The law -/

theorem reports_spec (polls : List Poll) (hclock : ClockFrom 0 polls)
    (hsmall : ∀ t ∈ received polls, t.Small) :
    (∀ r ∈ reports polls, r.elapsed ≠ 0 → r.outTotals = r.latest) ∧
      (reports polls).IsChain Repeats ∧
      ((received polls).IsChain Totals.Le →
        ∀ d, (∀ r ∈ reports polls, 0 ≤ (r.stats.rate d).toInt) ∧
          credited d (reports polls) ≤ 1000 * ((latestFrom {} polls).total d).toInt) := by
  have hzero : (0 : Int64).toInt = 0 := by decide
  have hsynced : ({} : TrafficMonitor).Synced {} := ⟨rfl, fun _ => rfl⟩
  refine ⟨outTotals_reportsFrom polls _ _ hsynced, (isChain_reportsFrom polls _ _).1, ?_⟩
  intro hchain d
  have htotal : ∀ d, (({} : Totals).total d).toInt = 0 := by
    intro d
    cases d with
    | tx => exact hzero
    | rx => exact hzero
  have hmetered : ({} : TrafficMonitor).Metered := by
    refine ⟨Int.le_of_eq hzero.symm, ?_, ?_, fun d => Int.le_refl _, ?_⟩
    · intro d
      have hd := htotal d
      change 0 ≤ (({} : Totals).total d).toInt ∧ (({} : Totals).total d).toInt < 9007199254740992
      omega
    · exact fun d => Int.le_of_eq (htotal d).symm
    · intro d
      cases d with
      | tx => exact Int.le_of_eq hzero.symm
      | rx => exact Int.le_of_eq hzero.symm
  have hfrom : (({} : TrafficMonitor).totals :: received polls).IsChain Totals.Le := by
    refine hchain.cons ?_
    intro t ht d
    have hpos := (hsmall t (List.mem_of_mem_head? ht) d).1
    exact Int.le_trans (Int.le_of_eq (htotal d)) hpos
  obtain ⟨hrates, hcredit⟩ := credited_reportsFrom polls {} hmetered hclock hfrom hsmall d
  refine ⟨hrates, ?_⟩
  have hout : ((({} : TrafficMonitor).out.totals).total d).toInt = 0 := htotal d
  rw [hout, Int.sub_zero] at hcredit
  exact hcredit

/-- Two messages, and polls before, between and behind them. -/
def twoMessages : List Poll :=
  [.requestUpdate 5,
    .message (some [100, 0, 0, 0, 0, 0, 0, 0, 7, 0, 0, 0, 0, 0, 0, 0]),
    .requestUpdate 5,
    .requestUpdate 8,
    .message (some [150, 0, 0, 0, 0, 0, 0, 0, 7, 0, 0, 0, 0, 0, 0, 0]),
    .requestUpdate 1008,
    .requestUpdate 2008]

theorem reports_spec_twoMessages :
    (∀ r ∈ reports twoMessages, r.elapsed ≠ 0 → r.outTotals = r.latest) ∧
      (reports twoMessages).map (fun r => (r.stats.txRate, r.updated)) =
        [(0, false), (0, false), (33333, true), (50, true), (0, true)] ∧
      credited .tx (reports twoMessages) ≤ 1000 * ((latestFrom {} twoMessages).total .tx).toInt := by
  have hreceived : received twoMessages = [⟨100, 7⟩, ⟨150, 7⟩] := by decide +kernel
  have hsmall : ∀ t ∈ received twoMessages, t.Small := by
    rw [hreceived]
    intro t ht d
    rcases List.mem_pair.1 ht with rfl | rfl
    · cases d <;> decide
    · cases d <;> decide
  have hchain : (received twoMessages).IsChain Totals.Le := by
    rw [hreceived, List.isChain_pair]
    intro d
    cases d <;> decide
  obtain ⟨hout, -, hrates⟩ := reports_spec twoMessages
    ⟨by decide, by decide, by decide, by decide, by decide, trivial⟩ hsmall
  exact ⟨hout, by decide +kernel, (hrates hchain .tx).2⟩

end Bg
end SpinVpn
