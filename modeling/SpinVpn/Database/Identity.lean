import SpinVpn.Database.Replace
import SpinVpn.Subscription.Refresh
import SpinVpn.Utils.Text

/-!
# Identity — the address of a server as its identity

A subscription refresh and a replacing import know a server by its `formattedAddress`.  The port has
no colon, so the last colon is the one before it; what stands in front is the host in brackets if
the host has a colon, and the host itself otherwise.  So two servers never have one address
(`formattedAddress_identifies`).
-/

namespace SpinVpn
namespace Database

open Utils

/-! ## The last colon -/

/-- The text is cut at its last colon in one way only. -/
theorem append_colon_inj {l m d e : List Char} (hd : ':' ∉ d) (he : ':' ∉ e)
    (h : l ++ ':' :: d = m ++ ':' :: e) : l = m ∧ d = e := by
  rcases List.append_eq_append_iff.1 h with ⟨between, hm, htail⟩ | ⟨between, hl, htail⟩
  · cases between with
    | nil => exact ⟨by simpa using hm.symm, by simpa using htail⟩
    | cons c between =>
        -- the colon of the second text would stand among the digits of the first
        have htail' : d = between ++ ':' :: e := (List.cons.inj htail).2
        exact absurd (htail' ▸ List.mem_append_right _ List.mem_cons_self) hd
  · cases between with
    | nil => exact ⟨by simpa using hl, by simpa using htail.symm⟩
    | cons c between =>
        have htail' : e = between ++ ':' :: d := (List.cons.inj htail).2
        exact absurd (htail' ▸ List.mem_append_right _ List.mem_cons_self) he

theorem colon_not_mem_toString (n : Int) : ':' ∉ (toString n).toList := by
  intro hmem
  rcases mem_toString_int hmem with hsign | hdigit
  · exact absurd hsign (by decide)
  · exact absurd hdigit (by decide)

namespace Profile

/-! ## The host -/

/-- The host as it stands in the address. -/
def formattedHost (host : String) : List Char :=
  if host.toList.contains ':' then '[' :: (host.toList ++ [']']) else host.toList

theorem toList_formattedAddress (p : Profile) :
    p.formattedAddress.toList = formattedHost p.host ++ ':' :: (toString p.remotePort).toList := by
  rw [formattedAddress, formattedHost]
  split
  · have hopen : "[".toList = ['['] := by decide
    have hclose : "]:".toList = [']', ':'] := by decide
    simp only [String.toList_append, hopen, hclose, List.append_assoc, List.cons_append,
      List.nil_append]
  · have hcolon : ":".toList = [':'] := by decide
    simp only [String.toList_append, hcolon, List.append_assoc, List.cons_append, List.nil_append]

theorem contains_formattedHost (host : String) :
    (formattedHost host).contains ':' = host.toList.contains ':' := by
  rw [formattedHost]
  split
  · rename_i hcolon
    rw [hcolon, List.contains_iff_mem]
    exact List.mem_cons_of_mem _ (List.mem_append_left _ (List.contains_iff_mem.1 hcolon))
  · rfl

/-- The brackets are there exactly where they enclose a colon. -/
theorem formattedHost_inj {host host' : String} (h : formattedHost host = formattedHost host') :
    host = host' := by
  have hcolon : host.toList.contains ':' = host'.toList.contains ':' := by
    rw [← contains_formattedHost, h, contains_formattedHost]
  rw [formattedHost, formattedHost, ← hcolon] at h
  refine String.toList_injective ?_
  split at h
  · exact List.append_cancel_right (List.cons.inj h).2
  · exact h

theorem formattedAddress_iff (p q : Profile) :
    p.formattedAddress = q.formattedAddress ↔ p.host = q.host ∧ p.remotePort = q.remotePort := by
  constructor
  · intro h
    have htext := congrArg String.toList h
    rw [toList_formattedAddress, toList_formattedAddress] at htext
    obtain ⟨hhost, hport⟩ := append_colon_inj (colon_not_mem_toString p.remotePort)
      (colon_not_mem_toString q.remotePort) htext
    exact ⟨formattedHost_inj hhost, toString_int_inj (String.toList_injective hport)⟩
  · rintro ⟨hhost, hport⟩
    rw [formattedAddress, formattedAddress, hhost, hport]

end Profile

/-! ## Servers -/

/-- The address is that of one server.  So a refresh takes two profiles for the same only if they are
one server under one name, and a replacing import only takes over the counters of the server itself. -/
theorem formattedAddress_identifies (p q : Profile) :
    (p.formattedAddress = q.formattedAddress ↔ p.host = q.host ∧ p.remotePort = q.remotePort) ∧
      (Subscription.keyOf p = Subscription.keyOf q ↔
        p.name = q.name ∧ p.host = q.host ∧ p.remotePort = q.remotePort) ∧
      ∀ t old, Keyed.get p.formattedAddress (ProfileManager.replacedProfiles t) = some old →
        old ∈ t.rows ∧ old.host = p.host ∧ old.remotePort = p.remotePort := by
  refine ⟨Profile.formattedAddress_iff p q, ?_, ?_⟩
  · rw [Subscription.keyOf, Subscription.keyOf, Prod.mk.injEq, Profile.formattedAddress_iff]
  · intro t old hget
    by_cases hknown : ∃ row ∈ t.rows, row.formattedAddress = p.formattedAddress
    · obtain ⟨row, hrow, haddress, hfound⟩ := Keyed.get_foldl_put t.rows [] hknown
      have hsame : row = old := Option.some.inj (hfound.symm.trans hget)
      rw [← hsame]
      exact ⟨hrow, (Profile.formattedAddress_iff row p).1 haddress⟩
    · have hnone : Keyed.get p.formattedAddress (ProfileManager.replacedProfiles t) = none :=
        Keyed.get_foldl_put_of_not t.rows [] (fun row hrow haddress => hknown ⟨row, hrow, haddress⟩)
      rw [hnone] at hget
      cases hget

end Database
end SpinVpn
