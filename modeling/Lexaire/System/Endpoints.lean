import Lexaire.Core.Text
import Lexaire.Core.Url

/-! The address that a service binds, as `messages.hpp` and as `transport.py` compute it from the
same endpoint. -/
namespace Lexaire.System
open Text

/-- `bind_endpoint` of `messages.hpp`. -/
def bindEndpoint (ep : String) : String :=
  let tcp := "tcp://"
  if !startsWith tcp ep then ep
  else
    match rfind ':' ep.toList with
    | none => ep
    | some colon =>
      if colon ≤ tcp.length then ep
      else tcp ++ "*" ++ String.ofList (ep.toList.drop colon)

/-- `urlparse(endpoint).port`, of an endpoint that begins with `tcp://`, read from its last colon
on; see `Url.portText?` for the hosts where CPython's own reading is another. -/
def urlparsePort (endpoint : String) : Except Url.PortError (Option Nat) :=
  Url.port? (Url.authority (endpoint.toList.drop "tcp://".length))

/-- `_bind_ep` of `transport.py`. -/
def bindEp (endpoint : String) : Except Url.PortError String :=
  if !startsWith "tcp://" endpoint then .ok endpoint
  else do
    match ← urlparsePort endpoint with
    | none => return endpoint
    | some port => return "tcp://*:" ++ toString port

/-- Both sides bind the one address, which is the endpoint's own unless that gives a port. -/
structure SameAddress (ep : String) : Prop where
  same : bindEp ep = .ok (bindEndpoint ep)
  unchanged : startsWith "tcp://" ep = false ∨ urlparsePort ep = .ok none → bindEndpoint ep = ep
  rewritten : ∀ port, startsWith "tcp://" ep = true → urlparsePort ep = .ok (some port) →
    bindEndpoint ep = "tcp://*:" ++ toString port

def tcp (body : List Char) : String := "tcp://" ++ String.ofList body

/-- The endpoints whose address the two sides read alike: not of TCP, without a colon, with no
host or the wildcard and an empty port, and with a port that ends the text, has no leading zeros
and is the authority's, too. -/
inductive ReadAlike : String → Prop where
  | other {ep : String} (transport : startsWith "tcp://" ep = false) : ReadAlike ep
  | portless {body : List Char} (absent : ':' ∉ body) : ReadAlike (tcp body)
  | empty {host rest : List Char} (open_host : host = [] ∨ host = ['*']) (absent : ':' ∉ rest)
      (ended : Url.authority rest = []) : ReadAlike (tcp (host ++ ':' :: rest))
  | numbered {host text : List Char} {port : Nat} (some_host : host ≠ []) (small : port ≤ 65535)
      (given : Url.portText? false (Url.authority (host ++ ':' :: Nat.toDigits 10 port)) = some text)
      (denotes : Url.decimal? text = some port) :
      ReadAlike (tcp (host ++ ':' :: Nat.toDigits 10 port))

/-! ## The two sides on a TCP endpoint -/

section
variable {body host rest : List Char}

theorem toList_tcp (body : List Char) : (tcp body).toList = "tcp://".toList ++ body := by
  simp [tcp]

theorem startsWith_tcp (body : List Char) : startsWith "tcp://" (tcp body) = true := by
  rw [startsWith, toList_tcp, List.isPrefixOf_iff_prefix]
  exact List.prefix_append _ _

theorem exists_tcp {ep : String} (begins : startsWith "tcp://" ep = true) : ∃ body, ep = tcp body := by
  rw [startsWith, List.isPrefixOf_iff_prefix] at begins
  obtain ⟨body, split⟩ := begins
  refine ⟨body, String.toList_injective ?_⟩
  rw [toList_tcp, split]

theorem tcp_injective {body' : List Char} (same : tcp body = tcp body') : body = body' := by
  have lists := congrArg String.toList same
  rw [toList_tcp, toList_tcp] at lists
  exact List.append_cancel_left lists

theorem bindEndpoint_tcp {colon : Nat} (last : rfind ':' (tcp body).toList = some colon) :
    bindEndpoint (tcp body) =
      if colon ≤ 6 then tcp body else "tcp://*" ++ String.ofList ((tcp body).toList.drop colon) := by
  have six : "tcp://".length = 6 := rfl
  simp [bindEndpoint, startsWith_tcp, last, six]

theorem bindEndpoint_portless (absent : ':' ∉ body) : bindEndpoint (tcp body) = tcp body := by
  have split : (tcp body).toList = "tcp".toList ++ ':' :: ("//".toList ++ body) := by
    rw [toList_tcp]
    rfl
  have last : rfind ':' (tcp body).toList = some 3 := by
    rw [split]
    exact rfind_append_cons (by simp [absent])
  rw [bindEndpoint_tcp last, if_pos (by decide)]

theorem rfind_tcp (absent : ':' ∉ rest) :
    rfind ':' (tcp (host ++ ':' :: rest)).toList = some (6 + host.length) := by
  rw [toList_tcp, ← List.append_assoc, rfind_append_cons absent, List.length_append]
  rfl

theorem bindEndpoint_no_host (absent : ':' ∉ rest) :
    bindEndpoint (tcp (':' :: rest)) = tcp (':' :: rest) := by
  have last : rfind ':' (tcp (':' :: rest)).toList = some 6 := @rfind_tcp [] rest absent
  rw [bindEndpoint_tcp last, if_pos (by decide)]

theorem bindEndpoint_host (some_host : host ≠ []) (absent : ':' ∉ rest) :
    bindEndpoint (tcp (host ++ ':' :: rest)) = tcp ('*' :: ':' :: rest) := by
  have later : ¬ 6 + host.length ≤ 6 := by
    have length := List.length_pos_iff.mpr some_host
    omega
  have cut : (tcp (host ++ ':' :: rest)).toList.drop (6 + host.length) = ':' :: rest := by
    rw [toList_tcp, ← List.append_assoc, List.drop_left' (by rw [List.length_append]; rfl)]
  rw [bindEndpoint_tcp (rfind_tcp absent), if_neg later, cut]
  apply String.toList_injective
  simp [tcp]

theorem urlparsePort_tcp (body : List Char) :
    urlparsePort (tcp body) = Url.port? (Url.authority body) := by
  rw [urlparsePort, toList_tcp]
  rfl

theorem bindEp_tcp (body : List Char) : bindEp (tcp body) =
    match Url.port? (Url.authority body) with
    | .error e => .error e
    | .ok none => .ok (tcp body)
    | .ok (some port) => .ok (tcp ('*' :: ':' :: Nat.toDigits 10 port)) := by
  unfold bindEp
  rw [startsWith_tcp, urlparsePort_tcp]
  cases Url.port? (Url.authority body) with
  | error e => rfl
  | ok port =>
    cases port with
    | none => rfl
    | some port =>
      refine congrArg Except.ok (String.toList_injective ?_)
      simp [tcp]

theorem port?_portless (absent : ':' ∉ body) : Url.port? (Url.authority body) = .ok none := by
  rw [Url.port?_eq_none_iff, Url.portText?_eq_none]
  · exact .inl rfl
  · exact fun member => absent ((List.takeWhile_prefix _).subset member)

/-- Behind no host, or the wildcard, the port is missing when the authority ends at its colon. -/
theorem port?_open_host (open_host : host = [] ∨ host = ['*']) (absent : ':' ∉ rest) :
    Url.port? (Url.authority (host ++ ':' :: rest)) = .ok none ↔ Url.authority rest = [] := by
  have within : ':' ∉ Url.authority rest :=
    fun member => absent ((List.takeWhile_prefix _).subset member)
  have text :
      Url.portText? false (Url.authority (host ++ ':' :: rest)) = some (Url.authority rest) := by
    rcases open_host with rfl | rfl
    · exact Url.portText?_colon within
    · exact @Url.portText?_append ['*'] _ _ _ (Url.portText?_colon within)
  rw [Url.port?_eq_none_iff, text]
  simp

/-! ## When they agree -/

theorem readAlike_of_same {ep : String} (same : bindEp ep = .ok (bindEndpoint ep)) : ReadAlike ep := by
  by_cases begins : startsWith "tcp://" ep = true
  · obtain ⟨body, rfl⟩ := exists_tcp begins
    by_cases absent : ':' ∉ body
    · exact .portless absent
    · obtain ⟨host, rest, rfl, last⟩ := exists_last (not_not.mp absent)
      rw [bindEp_tcp] at same
      by_cases some_host : host = []
      · rw [some_host, List.nil_append, bindEndpoint_no_host last] at same
        split at same
        · cases same
        · next no_port =>
          have ended := (port?_open_host (.inl rfl) last).mp no_port
          exact some_host ▸ .empty (.inl rfl) last ended
        · next port given =>
          have lists := tcp_injective (Except.ok.inj same)
          cases lists
      · rw [bindEndpoint_host some_host last] at same
        split at same
        · cases same
        · next no_port =>
          obtain rfl : host = ['*'] :=
            List.append_cancel_right (tcp_injective (Except.ok.inj same) : _ = ['*'] ++ ':' :: rest)
          exact .empty (.inr rfl) last ((port?_open_host (.inr rfl) last).mp no_port)
        · next port given =>
          obtain rfl : Nat.toDigits 10 port = rest :=
            List.append_cancel_left
              (tcp_injective (Except.ok.inj same) : ['*', ':'] ++ _ = ['*', ':'] ++ rest)
          obtain ⟨small, text, found, denotes⟩ := Url.port?_eq_some_iff.mp given
          exact .numbered some_host small found denotes
  · exact .other (by simpa using begins)

theorem same_of_readAlike {ep : String} (alike : ReadAlike ep) : bindEp ep = .ok (bindEndpoint ep) := by
  cases alike with
  | other transport => simp [bindEp, bindEndpoint, transport]
  | portless absent => rw [bindEp_tcp, port?_portless absent, bindEndpoint_portless absent]
  | @empty host rest open_host absent ended =>
    rw [bindEp_tcp, (port?_open_host open_host absent).mpr ended]
    rcases open_host with rfl | rfl
    · exact congrArg Except.ok (bindEndpoint_no_host absent).symm
    · exact congrArg Except.ok (bindEndpoint_host (List.cons_ne_nil '*' []) absent).symm
  | @numbered host text port some_host small given denotes =>
    rw [bindEp_tcp, Url.port?_eq_some_iff.mpr ⟨small, text, given, denotes⟩,
      bindEndpoint_host some_host (Url.not_mem_decimal rfl)]

theorem bindEp_unchanged {ep : String}
    (no_port : startsWith "tcp://" ep = false ∨ urlparsePort ep = .ok none) : bindEp ep = .ok ep := by
  unfold bindEp
  rcases no_port with other | none
  · rw [other]
    rfl
  · rw [none]
    split <;> rfl

theorem bindEp_rewritten {ep : String} {port : Nat} (begins : startsWith "tcp://" ep = true)
    (given : urlparsePort ep = .ok (some port)) : bindEp ep = .ok ("tcp://*:" ++ toString port) := by
  rw [bindEp, begins, given]
  rfl

/-- The two sides bind one address just for the endpoints that they read alike. -/
theorem same_address_iff (ep : String) : SameAddress ep ↔ ReadAlike ep := by
  constructor
  · intro address
    exact readAlike_of_same address.same
  · intro alike
    have same := same_of_readAlike alike
    refine ⟨same, ?_, ?_⟩
    · intro no_port
      exact Except.ok.inj (same.symm.trans (bindEp_unchanged no_port))
    · intro port begins given
      exact Except.ok.inj (same.symm.trans (bindEp_rewritten begins given))

/-- Without a host, the port is rewritten in Python only. -/
theorem no_host_differs : ¬ ∀ ep, SameAddress ep := by
  intro always
  have unchanged : bindEndpoint "tcp://:5555" = "tcp://:5555" := rfl
  have rewritten := (always "tcp://:5555").rewritten 5555 rfl rfl
  rw [unchanged] at rewritten
  revert rewritten
  decide

/-! ## The usual endpoints -/

/-- A port without leading zeros, behind a host that leaves no bracket open. -/
theorem readAlike_host_port {port : Nat} (some_host : host ≠ [])
    (undelimited : ∀ c ∈ host, Url.isDelimiter c = false)
    (closed : host.foldl Url.bracketed false = false) (small : port ≤ 65535) :
    ReadAlike (tcp (host ++ ':' :: Nat.toDigits 10 port)) := by
  have all : Url.authority (host ++ ':' :: Nat.toDigits 10 port) =
      host ++ ':' :: Nat.toDigits 10 port := by
    refine List.takeWhile_eq_self_iff.mpr fun c member => ?_
    rw [Bool.not_eq_true']
    rcases List.mem_append.mp member with inHost | later
    · exact undelimited c inHost
    · rcases List.mem_cons.mp later with rfl | digit
      · rfl
      · exact Url.isDelimiter_of_isDigit (Url.isDigit_of_mem_decimal digit)
  refine .numbered some_host small ?_ (Url.decimal?_toDigits port)
  rw [all]
  refine Url.portText?_append ?_
  rw [closed]
  exact Url.portText?_colon (Url.not_mem_decimal rfl)

/-- A name, an IPv4 address or the wildcard; a host with colons of its own under this reading
only. -/
theorem readAlike_name {port : Nat} (some_host : host ≠ [])
    (undelimited : ∀ c ∈ host, Url.isDelimiter c = false) (unbracketed : '[' ∉ host)
    (small : port ≤ 65535) : ReadAlike (tcp (host ++ ':' :: Nat.toDigits 10 port)) :=
  readAlike_host_port some_host undelimited (Url.foldl_bracketed unbracketed) small

/-- An IPv6 address; other brackets under this reading only. -/
theorem readAlike_brackets {port : Nat} (undelimited : ∀ c ∈ host, Url.isDelimiter c = false)
    (small : port ≤ 65535) :
    ReadAlike (tcp ('[' :: host ++ [']'] ++ ':' :: Nat.toDigits 10 port)) := by
  refine readAlike_host_port (by simp) ?_ (Url.foldl_bracketed_concat _) small
  intro c member
  simp only [List.cons_append, List.mem_cons, List.mem_append, List.not_mem_nil, or_false] at member
  rcases member with rfl | inside | rfl
  · rfl
  · exact undelimited c inside
  · rfl

end

end Lexaire.System
