import SealedGateway.Gateway.Startup
import SealedGateway.Proofs.Net.Host

/-!
# The addresses of listeners

A listener's address is written as a host, a colon and a port, and read back. The digits of a port
hold no colon, so the last colon is the one that was written, and what is in front of it is a host
or nothing (**`SocketAddr.parse?_eq_some_iff`**). So the host is read alike in front of every port.

Main statement: **`SocketAddr.host_keeps_port`**.
-/

namespace SealedGateway

open Numeral (Ended ended_cons ended_nil)

namespace SocketAddr

variable {s r : List Char}

theorem readPort?_eq_some_iff {port : UInt16} :
    readPort? s = some (port, r) ↔
      ∃ w, s = ':' :: (w ++ r) ∧ Numeral.Spells 10 w port.toNat ∧ Ended 10 r := by
  rw [readPort?, marked_eq_some_iff]
  constructor
  · rintro ⟨w, n, rfl, hw, hr, hlt, rfl⟩
    exact ⟨w, rfl, by rwa [UInt16.toNat_ofNat_of_lt' hlt], hr⟩
  · rintro ⟨w, rfl, hw, hr⟩
    exact ⟨w, _, rfl, hw, hr, port.toNat_lt, UInt16.ofNat_toNat⟩

/-- A text is an address just if it is a host, a colon and the number of a port. -/
theorem parse?_eq_some_iff {s : String} {a : SocketAddr} :
    parse? s = some a ↔ ∃ w u, s.toList = w ++ ':' :: u ∧ Host.Spells w a.host ∧
      Numeral.Spells 10 u a.port.toNat := by
  constructor
  · intro h
    obtain ⟨⟨host, rest⟩, hhost, h⟩ := Option.bind_eq_some_iff.mp h
    obtain ⟨⟨port, rest'⟩, hport, h⟩ := Option.bind_eq_some_iff.mp h
    cases rest' with
    | cons => cases h
    | nil =>
      cases h
      obtain ⟨w, htext, hw⟩ := Host.spells_of_read? hhost
      obtain ⟨u, rfl, hu, -⟩ := readPort?_eq_some_iff.mp hport
      exact ⟨w, u, by rw [htext, List.append_nil], hw, hu⟩
  · rintro ⟨w, u, htext, hw, hu⟩
    have hhost := Host.read?_append hw (ended_cons (by decide) u : Ended 10 (':' :: u))
    have hport : readPort? (':' :: u) = some (a.port, []) :=
      readPort?_eq_some_iff.mpr ⟨u, by rw [List.append_nil], hu, ended_nil⟩
    rw [parse?, htext, hhost]
    simp only [Option.bind_eq_bind, Option.bind_some, hport]
    rfl

/-- The last colon in front of digits. -/
theorem split_port {w w' u u' : List Char} (hu : ∀ c ∈ u, Numeral.isDigit 10 c = true)
    (hu' : ∀ c ∈ u', Numeral.isDigit 10 c = true) (h : w ++ ':' :: u = w' ++ ':' :: u') :
    w = w' ∧ u = u' := by
  have hspan : ∀ {w u : List Char}, (∀ c ∈ u, Numeral.isDigit 10 c = true) →
      (w ++ ':' :: u).reverse.takeWhile (Numeral.isDigit 10) = u.reverse ∧
        (w ++ ':' :: u).reverse.dropWhile (Numeral.isDigit 10) = ':' :: w.reverse := by
    intro w u hu
    rw [List.reverse_append, List.reverse_cons, List.append_assoc, List.singleton_append]
    exact Numeral.span_digits (fun c hc => hu c (List.mem_reverse.mp hc))
      (ended_cons (by decide) _)
  have hdigits := (hspan (w := w) hu).1
  have hrest := (hspan (w := w) hu).2
  rw [h, (hspan hu').1] at hdigits
  rw [h, (hspan hu').2] at hrest
  exact ⟨List.reverse_inj.mp (List.cons.inj hrest).2.symm, List.reverse_inj.mp hdigits.symm⟩

theorem toList_joined (host : String) (port : UInt16) :
    (host ++ ":" ++ toString port).toList =
      host.toList ++ ':' :: Nat.toDigits 10 port.toNat := by
  rw [show toString port = toString port.toNat from rfl, Nat.toString_eq_ofList_toDigits]
  simp

theorem listen_eq_ok_iff {host : String} {port : UInt16} {a : SocketAddr} :
    listen host port = .ok a ↔ Host.Spells host.toList a.host ∧ a.port = port := by
  have hdigits := (Numeral.spells_toDigits port.toNat).1
  have hparse : listen host port = .ok a ↔ parse? (host ++ ":" ++ toString port) = some a := by
    rw [listen]
    split <;> simp_all
  rw [hparse, parse?_eq_some_iff, toList_joined]
  constructor
  · rintro ⟨w, u, htext, hw, hu⟩
    obtain ⟨rfl, rfl⟩ := split_port hdigits.digits hu.digits htext
    exact ⟨hw, UInt16.toNat_inj.mp (hu.value_eq.symm.trans hdigits.value_eq)⟩
  · rintro ⟨hhost, rfl⟩
    exact ⟨_, _, rfl, hhost, hdigits⟩

/-- A text that is no host is refused. -/
theorem listen_of_not_spells {host : String} (h : ∀ a, ¬ Host.Spells host.toList a)
    (port : UInt16) : ∃ message, listen host port = .error (.other message) := by
  cases hlisten : listen host port with
  | ok a => exact absurd (listen_eq_ok_iff.mp hlisten).1 (h a.host)
  | error f =>
    rw [listen] at hlisten
    split at hlisten
    · cases hlisten
    · cases hlisten
      exact ⟨_, rfl⟩

end SocketAddr

theorem Config.addresses_of_spells {c : Config} {a : Host} (h : Host.Spells c.host.toList a) :
    c.addresses = .ok ⟨⟨a, c.port⟩, ⟨a, c.controlPort⟩, ⟨a, c.metricsPort⟩⟩ := by
  have hlisten : ∀ port, SocketAddr.listen c.host port = .ok ⟨a, port⟩ :=
    fun _ => SocketAddr.listen_eq_ok_iff.mpr ⟨h, rfl⟩
  rw [addresses, hlisten, hlisten, hlisten]
  rfl

theorem Config.addresses_of_not_spells {c : Config} (h : ∀ a, ¬ Host.Spells c.host.toList a) :
    ∃ message, c.addresses = .error (.other message) := by
  obtain ⟨message, hlisten⟩ := SocketAddr.listen_of_not_spells h c.port
  rw [addresses, hlisten]
  exact ⟨message, rfl⟩

namespace SocketAddr

/-- The text of a host decides alone whether there is an address, and which one; no host changes a
port. So the listeners of a configuration have one address, or there are none. -/
theorem host_keeps_port :
    (∀ host : String,
      (∃ a, Host.Spells host.toList a ∧ ∀ port, listen host port = .ok ⟨a, port⟩) ∨
        (∀ a, ¬ Host.Spells host.toList a) ∧
          ∀ port, ∃ message, listen host port = .error (.other message)) ∧
    ∀ c : Config,
      (∃ a, Host.Spells c.host.toList a ∧
        c.addresses = .ok ⟨⟨a, c.port⟩, ⟨a, c.controlPort⟩, ⟨a, c.metricsPort⟩⟩) ∨
        (∀ a, ¬ Host.Spells c.host.toList a) ∧
          ∃ message, c.addresses = .error (.other message) := by
  refine ⟨fun host => ?_, fun c => ?_⟩
  · by_cases h : ∃ a, Host.Spells host.toList a
    · obtain ⟨a, ha⟩ := h
      exact .inl ⟨a, ha, fun port => listen_eq_ok_iff.mpr ⟨ha, rfl⟩⟩
    · rw [not_exists] at h
      exact .inr ⟨h, listen_of_not_spells h⟩
  · by_cases h : ∃ a, Host.Spells c.host.toList a
    · obtain ⟨a, ha⟩ := h
      exact .inl ⟨a, ha, Config.addresses_of_spells ha⟩
    · rw [not_exists] at h
      exact .inr ⟨h, Config.addresses_of_not_spells h⟩

namespace Sample

/-- A host with zeros left out, a dotted address and a scope. -/
def linkLocal : Host := .v6 ⟨[0xFE80, 0, 0, 0, 0, 7, 0x0102, 0x0304], rfl⟩ 5

end Sample

/-- What is read at one port is read at every port, with a host that has all parts and with one that
holds a port already. -/
theorem host_keeps_port_scoped :
    (∀ port, listen "[FE80::7:1.2.3.4%5]" port = .ok ⟨Sample.linkLocal, port⟩) ∧
      ∀ port, ∃ message, listen "1.2.3.4:5" port = .error (.other message) := by
  constructor
  · have hread : listen "[FE80::7:1.2.3.4%5]" 0 = .ok ⟨Sample.linkLocal, 0⟩ := by rfl
    rcases host_keeps_port.1 "[FE80::7:1.2.3.4%5]" with ⟨a, -, hlisten⟩ | ⟨-, hrefused⟩
    · rw [hlisten 0] at hread
      cases hread
      exact hlisten
    · obtain ⟨message, hmessage⟩ := hrefused 0
      rw [hread] at hmessage
      cases hmessage
  · have hread : (listen "1.2.3.4:5" 0).toOption = none := by rfl
    rcases host_keeps_port.1 "1.2.3.4:5" with ⟨a, -, hlisten⟩ | ⟨-, hrefused⟩
    · rw [hlisten 0] at hread
      cases hread
    · exact hrefused

end SocketAddr

end SealedGateway
