import BackendTemplate.IpAddress
import BackendTemplate.Registration
import BackendTemplate.Texts

/-!
# The Client IP

Behind a trusted proxy the address of the client is read from `X-Forwarded-For`, a list that every
proxy appends the address it sees to. The first entry is taken, which is the one furthest from the
proxy: what the client has sent comes before what the proxy has appended. So the proxy is believed
exactly when the client has sent nothing but blank entries, or its own address.

## Main results

* `firstForwarded_append` — the first entry of a list that was appended to.
* `plain_iff` — which addresses are one entry of a list.
* `client_ip_kept_iff` — when two requests through the proxy have the client's own address.
* `client_ip_chosen` — any entry the client sends is taken for its address.
-/

namespace BackendTemplate

open IpAddress

/-! ### Entries of a list -/

/-- An entry of a comma-separated list, stripped; blank ones are passed over. -/
def candidate (entry : Text) : Option Text :=
  if (strip entry).isEmpty then none else some (strip entry)

/-- The first entry of a list that is not blank. -/
def firstEntry (s : Text) : Option Text := (s.splitOn ',').findSome? candidate

/-! ### The client IP -/

/-- `trusted_networks`: entries that are no networks are passed over. -/
def trustedNetworks (trustedProxies : Option String) : List Network :=
  ((trustedProxies.getD "").toList.splitOn ',').filterMap fun entry =>
    (candidate entry).bind ipNetwork

/-- `_is_trusted`. -/
def isTrusted (trustedProxies : Option String) (peer : String) : Bool :=
  match ipAddress peer.toList with
  | none => false
  | some address => (trustedNetworks trustedProxies).any fun network => network.contains address

/-- `_first_forwarded`. -/
def firstForwarded (header : String) : Option String :=
  (firstEntry header.toList).map String.ofList

/-- `ASGIConnection`: the TCP peer and the headers, by their names. -/
structure ASGIConnection where
  client : Option String
  headers : String → Option String

/-- `client_ip`, under a setting of `TRUSTED_PROXIES`. -/
def clientIp (trustedProxies : Option String) (connection : ASGIConnection) : Option String :=
  match connection.client with
  | none => none
  | some peer =>
      let forwarded := connection.headers "x-forwarded-for"
      if isTrusted trustedProxies peer && truthy forwarded then
        some ((firstForwarded (forwarded.getD "")).getD peer)
      else some peer

/-- `client_ip_or_unknown`. -/
def clientIpOrUnknown (trustedProxies : Option String) (connection : ASGIConnection) : String :=
  orUnknown (clientIp trustedProxies connection)

/-! ### Entries -/

section Entries

variable {s t blanks : Text}

theorem candidate_eq_some : candidate s = some t ↔ strip s = t ∧ t ≠ [] := by
  rw [candidate]
  split
  · rename_i h
    rw [List.isEmpty_iff.mp h]
    exact ⟨nofun, fun ⟨ht, hne⟩ => absurd ht.symm hne⟩
  · rename_i h
    constructor
    · intro ht
      obtain rfl := Option.some.inj ht
      exact ⟨rfl, fun hnil => h (List.isEmpty_iff.mpr hnil)⟩
    · rintro ⟨rfl, -⟩
      rfl

/-- **The first entry of a list that was appended to**: what was there comes first. -/
theorem firstEntry_append (s t : Text) :
    firstEntry (s ++ ',' :: t) = (firstEntry s).or (firstEntry t) := by
  rw [firstEntry, List.splitOn_append_cons_self, List.findSome?_append, firstEntry, firstEntry]

/-- An entry is stripped and has no comma. -/
theorem of_firstEntry (h : firstEntry s = some t) : ',' ∉ t ∧ strip t = t ∧ t ≠ [] := by
  obtain ⟨entry, hentry, hcandidate⟩ := List.exists_of_findSome?_eq_some h
  obtain ⟨rfl, hne⟩ := candidate_eq_some.mp hcandidate
  exact ⟨fun hmem => not_mem_of_mem_splitOn hentry (mem_of_mem_strip hmem), strip_strip entry, hne⟩

/-- A stripped text without a comma is its only entry, whatever blanks come before it. -/
theorem firstEntry_single (hblanks : ∀ c ∈ blanks, isSpace c = true) (hcomma : ',' ∉ t)
    (hstrip : strip t = t) (hne : t ≠ []) : firstEntry (blanks ++ t) = some t := by
  have hcomma' : ',' ∉ blanks ++ t := by
    rw [List.mem_append, not_or]
    exact ⟨fun h => absurd (hblanks _ h) (by decide), hcomma⟩
  have hcandidate : candidate (blanks ++ t) = some t :=
    candidate_eq_some.mpr ⟨(strip_append_left hblanks).trans hstrip, hne⟩
  rw [firstEntry, List.splitOn_eq_singleton hcomma', List.findSome?_cons, hcandidate]

/-- A list of which some entry holds a character that is no blank has a first entry. -/
theorem firstEntry_isSome {c : Char} (hmem : c ∈ s) (hspace : isSpace c = false) (hc : c ≠ ',') :
    ∃ t, firstEntry s = some t := by
  rcases @of_mem_splitOn ',' _ _ hmem with rfl | ⟨entry, hentry, hin⟩
  · exact absurd rfl hc
  · refine Option.ne_none_iff_exists'.mp fun hnone => ?_
    have hblank := List.findSome?_eq_none_iff.mp hnone entry hentry
    have hnil : strip entry = [] := by
      by_contra hne
      rw [candidate_eq_some.mpr ⟨rfl, hne⟩] at hblank
      cases hblank
    rw [strip_eq_nil.mp hnil c hin] at hspace
    cases hspace

end Entries

/-! ### Addresses as entries -/

section Addresses

variable {s : Text} {address : Address}

/-- The zone of an address holds no comma and does not end in a blank. -/
def ZonePlain (address : Address) : Prop :=
  ∀ z, address.scopeId = some z → ',' ∉ z ∧ ∀ c, z.getLast? = some c → isSpace c = false

/-- A character of an address is neither a blank nor a comma. -/
theorem isAddressChar_plain {c : Char} (h : isAddressChar c = true) :
    isSpace c = false ∧ c ≠ ',' := by
  have hrange : 46 ≤ c.toNat ∧ c.toNat ≤ 102 := by
    simp only [isAddressChar, isHexDigit, Char.isDigit, Bool.or_eq_true, Bool.and_eq_true,
      decide_eq_true_eq, Char.le_def, ge_iff_le, UInt32.le_iff_toNat_le] at h
    rcases h with (((⟨h₁, h₂⟩ | ⟨h₁, h₂⟩) | ⟨h₁, h₂⟩) | rfl) | rfl
    · exact ⟨Nat.le_trans (by decide) h₁, Nat.le_trans h₂ (by decide)⟩
    · exact ⟨Nat.le_trans (by decide) h₁, Nat.le_trans h₂ (by decide)⟩
    · exact ⟨Nat.le_trans (by decide) h₁, Nat.le_trans h₂ (by decide)⟩
    · decide
    · decide
  constructor
  · simp [isSpace]
    omega
  · rintro rfl
    exact absurd hrange.1 (by decide)

/-- **Which addresses are one entry of a list**: those with a plain zone, or none. -/
theorem plain_iff (h : ipAddress s = some address) :
    (',' ∉ s ∧ strip s = s) ↔ ZonePlain address := by
  obtain ⟨base, hne, hall, hs⟩ := text_of_ipAddress h
  have hbase : ∀ c ∈ base, isSpace c = false ∧ c ≠ ',' := fun c hc => isAddressChar_plain (hall c hc)
  have hcomma : ',' ∉ base := fun hmem => (hbase _ hmem).2 rfl
  have hhead : ∀ c, base.head? = some c → isSpace c = false := fun c hc =>
    (hbase c (List.mem_of_head? hc)).1
  rw [strip_eq_self_iff]
  rcases hs with ⟨hzone, rfl⟩ | ⟨z, hzone, hz, rfl⟩
  · refine iff_of_true ⟨hcomma, hhead, fun c hc => (hbase c (List.mem_of_getLast? hc)).1⟩ ?_
    exact fun z hz => absurd (hzone.symm.trans hz) nofun
  · have hfront : (base ++ '%' :: z).head? = base.head? := by
      cases base with
      | nil => exact absurd rfl hne
      | cons c base => rfl
    have hback : (base ++ '%' :: z).getLast? = z.getLast? := by
      rw [List.getLast?_append, List.getLast?_cons]
      cases hlast : z.getLast? with
      | none => exact absurd (List.getLast?_eq_none_iff.mp hlast) hz
      | some c => rfl
    rw [hfront, hback, List.mem_append, List.mem_cons, ZonePlain]
    constructor
    · rintro ⟨hmem, -, hlast⟩ z' hz'
      obtain rfl := Option.some.inj (hzone.symm.trans hz')
      exact ⟨fun h => hmem (Or.inr (Or.inr h)), hlast⟩
    · intro hplain
      obtain ⟨hmem, hlast⟩ := hplain z hzone
      refine ⟨?_, hhead, hlast⟩
      rintro (h | h | h)
      · exact hcomma h
      · exact absurd h (by decide)
      · exact hmem h

/-- A list that ends with an address has a first entry. -/
theorem address_isSome {blanks : Text} (h : ipAddress s = some address) :
    ∃ t, firstEntry (blanks ++ s) = some t := by
  obtain ⟨base, hne, hall, hs⟩ := text_of_ipAddress h
  obtain ⟨c, base, rfl⟩ := List.exists_cons_of_ne_nil hne
  obtain ⟨hspace, hc⟩ := isAddressChar_plain (hall c List.mem_cons_self)
  refine firstEntry_isSome (List.mem_append_right _ ?_) hspace hc
  rcases hs with ⟨-, rfl⟩ | ⟨z, -, -, rfl⟩
  · exact List.mem_cons_self
  · exact List.mem_cons_self

/-- An address is the first entry after some blanks exactly when its zone is plain. -/
theorem firstEntry_address {blanks : Text} (h : ipAddress s = some address)
    (hblanks : ∀ c ∈ blanks, isSpace c = true) :
    firstEntry (blanks ++ s) = some s ↔ ZonePlain address := by
  rw [← plain_iff h]
  constructor
  · intro hfirst
    obtain ⟨hcomma, hstrip, -⟩ := of_firstEntry hfirst
    exact ⟨hcomma, hstrip⟩
  · rintro ⟨hcomma, hstrip⟩
    obtain ⟨base, hne, -, hs⟩ := text_of_ipAddress h
    refine firstEntry_single hblanks hcomma hstrip ?_
    rintro rfl
    rcases hs with ⟨-, hs⟩ | ⟨z, -, -, hs⟩
    · exact hne hs.symm
    · exact absurd hs.symm (by simp)

end Addresses

/-! ### Through a proxy -/

section Proxied

variable {trustedProxies : Option String} {peer blanks client : String} {address : Address}

/-- What a proxy makes of a list it has received, or of none: it appends the address it sees. -/
def appended (blanks client : String) : Option String → String
  | none => client
  | some sent => sent ++ "," ++ blanks ++ client

/-- A request that comes through a proxy. -/
def throughProxy (peer blanks client : String) (headers : String → Option String) :
    ASGIConnection where
  client := some peer
  headers := Function.update headers "x-forwarded-for"
    (some (appended blanks client (headers "x-forwarded-for")))

/-- What the client has sent has no first entry, or its own address. -/
def SendsOwn (client : String) (headers : String → Option String) : Prop :=
  ∀ sent entry, headers "x-forwarded-for" = some sent → firstForwarded sent = some entry →
    entry = client

/-- The entries of what arrives: those of what was sent, and then those of the address. -/
theorem firstEntry_appended (sent : String) :
    firstEntry (appended blanks client (some sent)).toList =
      (firstEntry sent.toList).or (firstEntry (blanks.toList ++ client.toList)) := by
  rw [← firstEntry_append, appended, String.toList_append, String.toList_append,
    String.toList_append, List.append_assoc, List.append_assoc]
  rfl

theorem firstForwarded_eq_some {header entry : String} :
    firstForwarded header = some entry ↔ firstEntry header.toList = some entry.toList := by
  rw [firstForwarded, Option.map_eq_some_iff]
  constructor
  · rintro ⟨t, ht, rfl⟩
    rw [ht, String.toList_ofList]
  · intro h
    exact ⟨_, h, String.ofList_toList⟩

/-- What arrives has a first entry. -/
theorem appended_isSome (hclient : ipAddress client.toList = some address) (sent : Option String) :
    ∃ entry, firstForwarded (appended blanks client sent) = some entry := by
  obtain ⟨t, ht⟩ : ∃ t, firstEntry (appended blanks client sent).toList = some t := by
    cases sent with
    | none => exact @address_isSome _ _ [] hclient
    | some sent =>
        rw [firstEntry_appended]
        cases firstEntry sent.toList with
        | some t => exact ⟨t, rfl⟩
        | none => exact address_isSome hclient
  exact ⟨String.ofList t, by rw [firstForwarded, ht]; rfl⟩

/-- The list that arrives begins with the address the proxy has seen exactly when the address is an
entry and what was sent has no other before it. -/
theorem firstForwarded_appended (hclient : ipAddress client.toList = some address)
    (hblanks : ∀ c ∈ blanks.toList, isSpace c = true) (headers : String → Option String) :
    firstForwarded (appended blanks client (headers "x-forwarded-for")) = some client ↔
      ZonePlain address ∧ SendsOwn client headers := by
  rw [firstForwarded_eq_some]
  cases hsent : headers "x-forwarded-for" with
  | none =>
      have hown : SendsOwn client headers := fun sent _ hs => absurd (hsent.symm.trans hs) nofun
      have hfirst := @firstEntry_address _ _ [] hclient (fun c hc => absurd hc List.not_mem_nil)
      exact hfirst.trans (iff_self_and.mpr fun _ => hown)
  | some sent =>
      have hown : SendsOwn client headers ↔
          ∀ entry, firstEntry sent.toList = some entry → entry = client.toList := by
        constructor
        · intro h entry hentry
          rw [← h sent (String.ofList entry) hsent (by rw [firstForwarded, hentry]; rfl),
            String.toList_ofList]
        · intro h sent' entry hs hentry
          obtain rfl := Option.some.inj (hsent.symm.trans hs)
          exact String.toList_inj.mp (h _ (firstForwarded_eq_some.mp hentry))
      rw [firstEntry_appended, hown, ← firstEntry_address hclient hblanks]
      cases hfirst : firstEntry sent.toList with
      | none => simp
      | some entry =>
          simp only [Option.some_or, Option.some.injEq, forall_eq']
          refine ⟨?_, And.right⟩
          rintro rfl
          obtain ⟨hcomma, hstrip, hne⟩ := of_firstEntry hfirst
          exact ⟨firstEntry_single hblanks hcomma hstrip hne, rfl⟩

/-- A request through a trusted proxy comes from the first entry of the list that arrives. -/
theorem clientIp_throughProxy (hpeer : isTrusted trustedProxies peer = true)
    (hclient : ipAddress client.toList = some address) (headers : String → Option String) :
    clientIp trustedProxies (throughProxy peer blanks client headers) =
      firstForwarded (appended blanks client (headers "x-forwarded-for")) := by
  obtain ⟨entry, hentry⟩ := @appended_isSome blanks client address hclient (headers "x-forwarded-for")
  have hne : appended blanks client (headers "x-forwarded-for") ≠ "" := by
    intro hempty
    rw [hempty] at hentry
    cases hentry
  simp [clientIp, throughProxy, hpeer, truthy, hne, hentry]

/-- **Behind a trusted proxy**, two requests have the address the proxy has seen, whatever lists the
client has sent with them, exactly when that address is an entry of a list and the client has sent
no other entry before it. -/
theorem client_ip_kept_iff (hpeer : isTrusted trustedProxies peer = true)
    (hclient : ipAddress client.toList = some address)
    (hblanks : ∀ c ∈ blanks.toList, isSpace c = true) (headers₁ headers₂ : String → Option String) :
    (clientIp trustedProxies (throughProxy peer blanks client headers₁) =
        clientIp trustedProxies (throughProxy peer blanks client headers₂) ∧
      clientIp trustedProxies (throughProxy peer blanks client headers₁) = some client) ↔
      ZonePlain address ∧ SendsOwn client headers₁ ∧ SendsOwn client headers₂ := by
  rw [clientIp_throughProxy hpeer hclient, clientIp_throughProxy hpeer hclient]
  constructor
  · rintro ⟨hsame, hfirst⟩
    obtain ⟨hplain, hown⟩ := (firstForwarded_appended hclient hblanks headers₁).mp hfirst
    exact ⟨hplain, hown,
      ((firstForwarded_appended hclient hblanks headers₂).mp (hsame.symm.trans hfirst)).2⟩
  · rintro ⟨hplain, hown₁, hown₂⟩
    have hfirst := (firstForwarded_appended hclient hblanks headers₁).mpr ⟨hplain, hown₁⟩
    exact ⟨hfirst.trans ((firstForwarded_appended hclient hblanks headers₂).mpr ⟨hplain, hown₂⟩).symm,
      hfirst⟩

/-- **The client chooses its address**: whatever entry it sends is what the request comes from. -/
theorem client_ip_chosen (hpeer : isTrusted trustedProxies peer = true)
    (hclient : ipAddress client.toList = some address) {chosen : String}
    (hcomma : ',' ∉ chosen.toList) (hstrip : strip chosen.toList = chosen.toList)
    (hne : chosen ≠ "") {headers : String → Option String}
    (hsent : headers "x-forwarded-for" = some chosen) :
    clientIp trustedProxies (throughProxy peer blanks client headers) = some chosen := by
  have hnil : chosen.toList ≠ [] := fun h => hne (String.toList_inj.mp h)
  have hfirst : firstEntry ([] ++ chosen.toList) = some chosen.toList :=
    firstEntry_single (fun c hc => absurd hc List.not_mem_nil) hcomma hstrip hnil
  rw [clientIp_throughProxy hpeer hclient, hsent, firstForwarded_eq_some, firstEntry_appended]
  rw [List.nil_append] at hfirst
  rw [hfirst, Option.some_or]

end Proxied

/-- The headers of a request that sends one list, or none. -/
def sending (sent : Option String) : String → Option String
  | "x-forwarded-for" => sent
  | _ => none

/-- A client outside the trusted network gets the address it asks for: two requests that come
through the same proxy, one with a list of its own, have different addresses. -/
theorem client_ip_forged :
    isTrusted (some "10.0.0.0/8") "10.0.0.1" = true ∧
    ipAddress "203.0.113.7".toList = some (.v4 0xCB007107#32) ∧
    isTrusted (some "10.0.0.0/8") "203.0.113.7" = false ∧
    clientIp (some "10.0.0.0/8")
      (throughProxy "10.0.0.1" " " "203.0.113.7" (sending (some "198.51.100.1"))) =
        some "198.51.100.1" ∧
    clientIp (some "10.0.0.0/8") (throughProxy "10.0.0.1" " " "203.0.113.7" (sending none)) =
      some "203.0.113.7" := by
  decide +kernel

/-- A client that sends blank entries, or its own address, is seen under it. -/
theorem client_ip_kept :
    clientIp (some "10.0.0.0/8, fd00::/8")
      (throughProxy "fd00::1" " " "203.0.113.7" (sending (some " , ,"))) = some "203.0.113.7" ∧
    clientIp (some "10.0.0.0/8, fd00::/8")
      (throughProxy "fd00::1" " " "203.0.113.7" (sending (some "203.0.113.7"))) =
        some "203.0.113.7" := by
  have hclient : ipAddress "203.0.113.7".toList = some (.v4 0xCB007107#32) := by decide +kernel
  have hown : ∀ sent, firstForwarded sent = none ∨ firstForwarded sent = some "203.0.113.7" →
      SendsOwn "203.0.113.7" (sending (some sent)) := by
    rintro sent h sent' entry hs hentry
    obtain rfl : sent = sent' := Option.some.inj hs
    rcases h with h | h
    · rw [h] at hentry
      cases hentry
    · exact (Option.some.inj (h.symm.trans hentry)).symm
  have hpeer : isTrusted (some "10.0.0.0/8, fd00::/8") "fd00::1" = true := by decide +kernel
  have hblanks : ∀ c ∈ " ".toList, isSpace c = true := by simp [isSpace]
  obtain ⟨hsame, hfirst⟩ := (client_ip_kept_iff hpeer hclient hblanks (sending (some " , ,"))
    (sending (some "203.0.113.7"))).mpr
    ⟨nofun, hown _ (Or.inl (by decide +kernel)), hown _ (Or.inr (by decide +kernel))⟩
  exact ⟨hfirst, hsame.symm.trans hfirst⟩

end BackendTemplate
