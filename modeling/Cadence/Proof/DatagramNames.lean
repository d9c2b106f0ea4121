import Cadence.Async.DatagramSocket

/-!
# The names of datagram sockets

The conversion stores the terminator over the last byte of the name, where `toAsioLocalEndpoint` stores
it behind that byte. The way back reads as many bytes of `sun_path` as the endpoint is long, and the
endpoint counts the address family in front of `sun_path` too.
-/

namespace Cadence.DatagramDomainSocket

/-! ### The way to the kernel -/

variable {n : Nat} {name : List Byte}

theorem toAsioLocalDatagramEndpoint_nil (n : Nat) :
    toAsioLocalDatagramEndpoint n ⟨[]⟩ = none := by
  have hmin : min ([] : List Byte).length n = 0 := Nat.zero_min n
  obtain ⟨_, _, _, _, hcopy⟩ :=
    @strncpy_of_le (List.replicate n none) [] 0 (Nat.zero_le _)
  simp only [toAsioLocalDatagramEndpoint, hmin, hcopy, if_true, Option.bind_eq_bind,
    Option.bind_some, Option.bind_none]

theorem toAsioLocalDatagramEndpoint_concat {front : List Byte} {last : Byte}
    (hname : 0 ∉ front ++ [last]) (hfits : (front ++ [last]).length ≤ n) :
    toAsioLocalDatagramEndpoint n ⟨front ++ [last]⟩ = some ⟨front⟩ := by
  have hlength : (front ++ [last]).length = front.length + 1 := List.length_append
  have hmin : min (front ++ [last]).length n = front.length + 1 := by omega
  have hdest : (List.replicate n none : CharArray).length = n := List.length_replicate
  have htext : ((front ++ [last]).take (front.length + 1)).takeWhile (· ≠ 0) =
      front ++ [last] := by
    rw [← hlength, List.take_length, takeWhile_of_no_nul hname]
  obtain ⟨filled, zeros, hfilled, hcount, hcopy⟩ :=
    @strncpy_of_le (List.replicate n none) (front ++ [last]) (front.length + 1) (by omega)
  rw [htext] at hfilled
  have hzeros : zeros = 0 := by
    have htotal := congrArg List.length hfilled
    rw [List.length_append, List.length_replicate] at htotal
    omega
  rw [hzeros, List.replicate_zero, List.append_nil] at hfilled
  have hfront : 0 ∉ front := fun hmem => hname (List.mem_append_left _ hmem)
  rw [hfilled, List.map_append, List.append_assoc, List.map_singleton, List.singleton_append]
    at hcopy
  simp only [toAsioLocalDatagramEndpoint, hmin, hcopy, Nat.succ_ne_zero, if_false,
    Nat.add_sub_cancel, CharArray.store_at, CharArray.cString_terminated,
    takeWhile_of_no_nul hfront, Option.bind_eq_bind, Option.bind_some, Option.pure_def]

/-- A name loses its last byte, and the empty name has none to lose. -/
theorem toAsioLocalDatagramEndpoint_of_no_nul (hname : 0 ∉ name) (hfits : name.length ≤ n) :
    toAsioLocalDatagramEndpoint n ⟨name⟩ =
      if name = [] then none else some ⟨name.dropLast⟩ := by
  split
  next hempty => rw [hempty, toAsioLocalDatagramEndpoint_nil]
  next hne =>
    have hsplit := List.dropLast_concat_getLast hne
    rw [← hsplit] at hname hfits
    have hconvert := toAsioLocalDatagramEndpoint_concat hname hfits
    rwa [hsplit] at hconvert

/-! ### The way back -/

/-- What comes back is two bytes longer than the path. -/
theorem NativeName.length_of_makeString {returned : NativeName} {e : AsioLocalEndpoint}
    {endpoint : UnixEndpoint} (hreturns : returned.Returns e)
    (hstring : returned.makeString = some endpoint) :
    endpoint.str.length = e.path.length + sunPathOffset := by
  rw [NativeName.makeString] at hstring
  split at hstring
  next hbound =>
    cases hstring
    rw [List.length_take, Nat.min_eq_left hbound, NativeName.size, hreturns.1, Nat.add_comm]
  next => cases hstring

/-- So the path itself never comes back, however it was converted. -/
theorem NativeName.makeString_ne_path {returned : NativeName} {e : AsioLocalEndpoint}
    (hreturns : returned.Returns e) : returned.makeString ≠ some ⟨e.path⟩ := by
  intro hstring
  have hlength := length_of_makeString hreturns hstring
  change e.path.length = e.path.length + 2 at hlength
  omega

/-! ### There and back -/

/-- The conversion stays inside `sun_path` and makes the name the path, as for a stream socket. -/
def ConvertsName (n : Nat) (name : List Byte) : Prop :=
  ∃ e, toAsioLocalDatagramEndpoint n ⟨name⟩ = some e ∧ e.path = name ∧
    toAsioLocalEndpoint n (.unix ⟨name⟩) = some (.ok e)

/-- The kernel returns the path the name was converted to as the local one, and the socket reports the
name. -/
def ReportsLocalName (n : Nat) (name : List Byte) (socket : SocketImpl) : Prop :=
  ∃ e, toAsioLocalDatagramEndpoint n ⟨name⟩ = some e ∧ socket.local_endpoint.Returns e ∧
    socket.getLocalEndpoint = some ⟨name⟩

def ReportsRemoteName (n : Nat) (name : List Byte) (socket : SocketImpl) : Prop :=
  ∃ e, toAsioLocalDatagramEndpoint n ⟨name⟩ = some e ∧ socket.remote_endpoint.Returns e ∧
    socket.getRemoteEndpoint = some ⟨name⟩

theorem not_convertsName (hname : 0 ∉ name) (hfits : name.length ≤ n) :
    ¬ ConvertsName n name := by
  rintro ⟨e, hconvert, hpath, _⟩
  rw [toAsioLocalDatagramEndpoint_of_no_nul hname hfits] at hconvert
  split at hconvert
  next => cases hconvert
  next hne =>
    cases hconvert
    have hlength := congrArg List.length hpath
    rw [List.length_dropLast] at hlength
    have hpos := List.length_pos_of_ne_nil hne
    omega

/-- One byte fewer on the way there and two more on the way back: one byte more in all. -/
theorem makeString_ne_name {returned : NativeName} {e : AsioLocalEndpoint} (hname : 0 ∉ name)
    (hfits : name.length ≤ n) (hconvert : toAsioLocalDatagramEndpoint n ⟨name⟩ = some e)
    (hreturns : returned.Returns e) : returned.makeString ≠ some ⟨name⟩ := by
  intro hstring
  have hlength := NativeName.length_of_makeString hreturns hstring
  rw [toAsioLocalDatagramEndpoint_of_no_nul hname hfits] at hconvert
  split at hconvert
  next => cases hconvert
  next =>
    cases hconvert
    change name.length = name.dropLast.length + 2 at hlength
    rw [List.length_dropLast] at hlength
    omega

/-- **Names of datagram sockets.** No name is converted to itself, and no socket bound or connected to
a name reports it. -/
theorem datagram_names_never_survive (hname : 0 ∉ name) (hfits : name.length < n) :
    ¬ ConvertsName n name ∧ (∀ socket, ¬ ReportsLocalName n name socket) ∧
      ∀ socket, ¬ ReportsRemoteName n name socket := by
  refine ⟨not_convertsName hname hfits.le, ?_, ?_⟩
  · rintro socket ⟨e, hconvert, hreturns, hreport⟩
    exact makeString_ne_name hname hfits.le hconvert hreturns hreport
  · rintro socket ⟨e, hconvert, hreturns, hreport⟩
    exact makeString_ne_name hname hfits.le hconvert hreturns hreport

/-- The name `/tmp/x`. -/
theorem datagram_name_never_survives :
    ¬ ConvertsName sunPathSize [0x2f, 0x74, 0x6d, 0x70, 0x2f, 0x78] ∧
      (∀ socket, ¬ ReportsLocalName sunPathSize [0x2f, 0x74, 0x6d, 0x70, 0x2f, 0x78] socket) ∧
      ∀ socket, ¬ ReportsRemoteName sunPathSize [0x2f, 0x74, 0x6d, 0x70, 0x2f, 0x78] socket :=
  datagram_names_never_survive (by decide) (by decide)

/-- The same name is cut to `/tmp/`, which is also what `/tmp/y` is cut to. -/
theorem not_convertsName_tmp :
    ¬ ConvertsName sunPathSize [0x2f, 0x74, 0x6d, 0x70, 0x2f, 0x78] ∧
      toAsioLocalDatagramEndpoint sunPathSize ⟨[0x2f, 0x74, 0x6d, 0x70, 0x2f, 0x78]⟩ =
        some ⟨[0x2f, 0x74, 0x6d, 0x70, 0x2f]⟩ ∧
      toAsioLocalDatagramEndpoint sunPathSize ⟨[0x2f, 0x74, 0x6d, 0x70, 0x2f, 0x79]⟩ =
        some ⟨[0x2f, 0x74, 0x6d, 0x70, 0x2f]⟩ :=
  ⟨not_convertsName (by decide) (by decide), by decide, by decide⟩

end Cadence.DatagramDomainSocket
