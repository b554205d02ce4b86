import InternationalDollar.OperatorAdmission

set_option autoImplicit false

/-! # What an admission changes (`operator_admission`)

The set with a candidate is made of the data that `_operator_set_data` copies, and read again. What it copies leaves out
the node port and puts defaults where a list is empty or a number is zero, so the set keeps these fields only where
they had their defaults. -/

namespace OperatorSet

variable {lib : TextLibrary}

/-! ## Texts -/

theorem str_orElse (lib : TextLibrary) (text : String) : lib.str ((Json.str text).orElse (.str "")) = text := by
  rw [Json.orElse]
  split
  · rw [lib.str_text]
  · next hempty =>
    have htext : text = "" := by simpa [Json.truthy] using hempty
    rw [lib.str_text, htext]

/-- An address that is read again changes only by blanks before a slash at its end. -/
theorem operatorUrl_text_iff {url : String} (h : Text.rstripChar '/' url = url) :
    operatorUrl lib (.str url) = url ↔ Text.strip url = url := by
  have hread : operatorUrl lib (.str url) = Text.rstripChar '/' (Text.strip url) := by
    rw [operatorUrl, str_orElse]
  rw [hread]
  constructor
  · intro heq
    -- neither end loses a character
    have hle : (Text.strip url).toList.length ≤ url.toList.length := by
      rw [String.length_toList, String.length_toList]
      exact Text.length_strip_le url
    have hbegins : url.toList <+: (Text.strip url).toList := by
      have hcut := Text.toList_rstripChar_isPrefix '/' (Text.strip url)
      rwa [heq] at hcut
    exact (String.toList_inj.1 (hbegins.eq_of_length_le hle)).symm
  · intro heq
    rw [heq, h]

theorem operatorName_text {index : Nat} {name : String} (hne : name ≠ "") (h : Text.strip name = name) :
    operatorName lib index (.str name) = name := by
  have htrue : (Json.str name).truthy = true := decide_eq_true hne
  rw [operatorName, Json.orElse, if_pos htrue, lib.str_text, h]

/-- An operator without a name gets one. -/
theorem operatorName_empty_ne (index : Nat) : operatorName lib index (.str "") ≠ "" := by
  rw [operatorName, Json.orElse, if_neg (by decide), lib.str_text]
  intro hempty
  have hchars : Text.trim Text.isSpace ("operator-" ++ Text.decimal ((index : Int) + 1)).toList = [] := by
    have htexts := congrArg String.toList hempty
    rwa [Text.strip, String.toList_ofList] at htexts
  obtain ⟨before, after, heq, hbefore, hafter⟩ :=
    Text.exists_trim_eq Text.isSpace ("operator-" ++ Text.decimal ((index : Int) + 1)).toList
  rw [hchars, List.append_nil] at heq
  have hmem : 'o' ∈ before ++ after := by
    rw [← heq, String.toList_append]
    exact List.mem_append_left _ (by decide)
  rcases List.mem_append.1 hmem with hmem | hmem
  · exact absurd (hbefore _ hmem) (by decide)
  · exact absurd (hafter _ hmem) (by decide)

theorem asList_texts (urls : List String) :
    asList lib (.arr (urls.map .str)) = .ok ((urls.map Text.strip).filter (· ≠ "")) := by
  rw [asList, List.map_map]
  refine congrArg (fun texts : List String => Except.ok (texts.filter (· ≠ ""))) (List.map_congr_left fun url _ => ?_)
  rw [Function.comp_apply, lib.str_text]

/-- Texts are read back where none has blanks at its ends. -/
theorem filter_strip_eq_iff {urls : List String} (h : ∀ url ∈ urls, url ≠ "") :
    (urls.map Text.strip).filter (· ≠ "") = urls ↔ ∀ url ∈ urls, Text.strip url = url := by
  constructor
  · intro heq
    have hlength : ((urls.map Text.strip).filter (· ≠ "")).length = (urls.map Text.strip).length := by
      rw [heq, List.length_map]
    rw [List.filter_eq_self.2 (List.length_filter_eq_length_iff.1 hlength)] at heq
    intro url hurl
    obtain ⟨i, hi, rfl⟩ := List.getElem_of_mem hurl
    have hat : (urls.map Text.strip)[i]? = urls[i]? := by rw [heq]
    rw [List.getElem?_map, List.getElem?_eq_getElem hi, Option.map_some, Option.some.injEq] at hat
    exact hat
  · intro hstrip
    rw [List.map_congr_left hstrip, List.map_id', List.filter_eq_self.2]
    exact fun url hurl => decide_eq_true (h url hurl)

/-! ## Records that are read again -/

variable {minRootMirrors : Int} {index : Nat} {record : OperatorRecord} {item : Json} {members : List (String × Json)}
  {seen operators : List OperatorRecord} {items : List Json}

/-- A record whose texts are tidy and that passes the checks. -/
structure IsRead (lib : TextLibrary) (minRootMirrors : Int) (record : OperatorRecord) : Prop where
  strip_name : Text.strip record.name = record.name
  url_ne : record.url ≠ ""
  rstrip_url : Text.rstripChar '/' record.url = record.url
  publicKey_ne : record.publicKey ≠ ""
  strip_publicKey : Text.strip record.publicKey = record.publicKey
  strip_urls : ∀ url ∈ record.mirrors ++ record.proofArchives, url ≠ "" ∧ Text.strip url = url
  mirrors : checkUrls lib minRootMirrors "mirror" record.name record.url record.mirrors = .ok ()
  proofArchives : checkUrls lib minRootMirrors "proof archive" record.name record.url record.proofArchives = .ok ()

theorem mem_asList {value : Json} {urls : List String} (h : asList lib value = .ok urls) :
    ∀ url ∈ urls, url ≠ "" ∧ Text.strip url = url := by
  unfold asList at h
  split at h
  · cases h
    exact fun url hurl => absurd hurl List.not_mem_nil
  · cases h
    intro url hurl
    obtain ⟨hmem, hne⟩ := List.mem_filter.1 hurl
    obtain ⟨_, -, rfl⟩ := List.mem_map.1 hmem
    exact ⟨of_decide_eq_true hne, Text.strip_strip _⟩
  · cases h

theorem isRead_of_normalizeOperator (h : normalizeOperator lib minRootMirrors index item = .ok record) :
    IsRead lib minRootMirrors record := by
  unfold normalizeOperator at h
  split at h
  · obtain ⟨mirrors, hmirrors, h⟩ := Check.bind_eq_ok.1 h
    obtain ⟨archives, harchives, h⟩ := Check.bind_eq_ok.1 h
    obtain ⟨hurl, h⟩ := Check.check_bind_eq_ok.1 h
    obtain ⟨hkey, h⟩ := Check.check_bind_eq_ok.1 h
    obtain ⟨hcheck, h⟩ := Check.check_bind_eq_ok.1 h
    obtain ⟨hcheck', h⟩ := Check.check_bind_eq_ok.1 h
    cases h
    refine ⟨Text.strip_strip _, Check.require_eq_ok.1 hurl, Text.rstripChar_rstripChar _ _,
      Check.require_eq_ok.1 hkey, Text.strip_strip _, ?_, hcheck, hcheck'⟩
    intro url hmem
    exact (List.mem_append.1 hmem).elim (mem_asList hmirrors url) (mem_asList harchives url)
  · cases h

/-- The record that is read from a record. -/
def reread (lib : TextLibrary) (index : Nat) (record : OperatorRecord) : OperatorRecord where
  name := operatorName lib index (.str record.name)
  url := operatorUrl lib (.str record.url)
  publicKey := Text.strip record.publicKey
  mirrors := (record.mirrors.map Text.strip).filter (· ≠ "")
  proofArchives := (record.proofArchives.map Text.strip).filter (· ≠ "")

theorem normalizeOperator_toJson_eq_ok {read : OperatorRecord}
    (h : normalizeOperator lib minRootMirrors index record.toJson = .ok read) : read = reread lib index record := by
  rw [OperatorRecord.toJson, normalizeOperator] at h
  obtain ⟨mirrors, hmirrors, h⟩ := Check.bind_eq_ok.1 h
  obtain ⟨archives, harchives, h⟩ := Check.bind_eq_ok.1 h
  obtain ⟨-, h⟩ := Check.check_bind_eq_ok.1 h
  obtain ⟨-, h⟩ := Check.check_bind_eq_ok.1 h
  obtain ⟨-, h⟩ := Check.check_bind_eq_ok.1 h
  obtain ⟨-, h⟩ := Check.check_bind_eq_ok.1 h
  cases h
  have hmirrors' := (asList_texts record.mirrors).symm.trans hmirrors
  have harchives' := (asList_texts record.proofArchives).symm.trans harchives
  cases hmirrors'
  cases harchives'
  show OperatorRecord.mk _ _ (Text.strip (lib.str ((Json.str record.publicKey).orElse (.str "")))) _ _ = _
  rw [str_orElse]
  rfl

/-- A record that was read is read as it is if it has a name and its address no blank at the end. -/
theorem normalizeOperator_toJson_iff (h : IsRead lib minRootMirrors record) :
    normalizeOperator lib minRootMirrors index record.toJson = .ok record ↔
      record.name ≠ "" ∧ Text.strip record.url = record.url := by
  constructor
  · intro hread
    have heq := normalizeOperator_toJson_eq_ok hread
    refine ⟨fun hempty => ?_, (operatorUrl_text_iff h.rstrip_url).1 (congrArg OperatorRecord.url heq).symm⟩
    have hname : record.name = operatorName lib index (.str record.name) := congrArg OperatorRecord.name heq
    rw [hempty] at hname
    exact operatorName_empty_ne index hname.symm
  · rintro ⟨hname, hurl⟩
    have hlist : ∀ urls, (∀ url ∈ urls, url ∈ record.mirrors ++ record.proofArchives) →
        asList lib (.arr (urls.map .str)) = .ok urls := by
      intro urls hurls
      rw [asList_texts, (filter_strip_eq_iff fun url hurl => (h.strip_urls url (hurls url hurl)).1).2
        fun url hurl => (h.strip_urls url (hurls url hurl)).2]
    have hmirrors := hlist record.mirrors fun url hurl => List.mem_append_left _ hurl
    have harchives := hlist record.proofArchives fun url hurl => List.mem_append_right _ hurl
    rw [OperatorRecord.toJson, normalizeOperator]
    simp only [Json.getD, AssocList.get?, String.reduceEq, if_true, if_false, Option.getD_some]
    rw [hmirrors, Check.ok_bind, harchives, Check.ok_bind, str_orElse, h.strip_publicKey, (operatorUrl_text_iff h.rstrip_url).2 hurl,
      operatorName_text hname h.strip_name, Check.require_of h.url_ne, Check.ok_bind, Check.require_of h.publicKey_ne,
      Check.ok_bind, h.mirrors, Check.ok_bind, h.proofArchives]
    rfl

/-- The operators that were read are read as they are if each of them is. -/
theorem normalizeOperators_toJson_iff (h : normalizeOperators lib minRootMirrors seen items = .ok operators) :
    normalizeOperators lib minRootMirrors seen (operators.map OperatorRecord.toJson) = .ok operators ↔
      ∀ record ∈ operators, record.name ≠ "" ∧ Text.strip record.url = record.url := by
  induction items generalizing seen operators with
  | nil =>
    cases h
    simp [normalizeOperators]
  | cons item rest ih =>
    obtain ⟨record, hrecord, h⟩ := Check.bind_eq_ok.1 h
    obtain ⟨hnew, h⟩ := Check.check_bind_eq_ok.1 h
    obtain ⟨more, hmore, h⟩ := Check.bind_eq_ok.1 h
    cases h
    rw [List.forall_mem_cons, ← ih hmore, ← normalizeOperator_toJson_iff (isRead_of_normalizeOperator hrecord),
      List.map_cons, normalizeOperators]
    constructor
    · intro hread
      obtain ⟨record', hrecord', hread⟩ := Check.bind_eq_ok.1 hread
      obtain ⟨-, hread⟩ := Check.check_bind_eq_ok.1 hread
      obtain ⟨more', hmore', hread⟩ := Check.bind_eq_ok.1 hread
      cases hread
      exact ⟨hrecord', hmore'⟩
    · rintro ⟨hrecord', hmore'⟩
      rw [hrecord', Check.ok_bind, hnew, Check.ok_bind, hmore']
      rfl

/-! ## Sets that are read again -/

theorem cleanDomain_default : ∀ domain ∈ defaultOperatorCoreDomains, cleanDomain lib domain = domain := by
  have hclean : ∀ domain, (domain.toList.all fun c => c.toNat < 128) = true → Text.strip domain = domain →
      Text.stripChar '.' (Text.lower domain) = domain → Text.dropPrefix? ['*', '.'] domain.toList = none →
        cleanDomain lib domain = domain := by
    intro domain hascii hstrip hlower hstar
    rw [cleanDomain, hstrip, lib.lower_ascii domain hascii, hlower, hstar]
  simp only [defaultOperatorCoreDomains, List.forall_mem_cons]
  refine ⟨?_, ?_, fun _ h => absurd h List.not_mem_nil⟩ <;>
    exact hclean _ (by decide) (by decide) (by decide) (by decide)

theorem asDomainList_texts (domains : List String) : asDomainList lib (.arr (domains.map .str))
    = .ok (dedupe ((domains.map (cleanDomain lib)).filter (· ≠ ""))) := by
  rw [asDomainList, List.map_map]
  refine congrArg (fun texts : List String => Except.ok (dedupe (texts.filter (· ≠ ""))))
    (List.map_congr_left fun domain _ => ?_)
  rw [Function.comp_apply, lib.str_text]

theorem asDomainList_default :
    asDomainList lib (.arr (defaultOperatorCoreDomains.map .str)) = .ok defaultOperatorCoreDomains := by
  rw [asDomainList_texts, List.map_congr_left cleanDomain_default, List.map_id']
  decide

theorem networkOf_ne (members : List (String × Json)) : networkOf lib members ≠ "" := by
  rw [networkOf, Json.orElse]
  split
  · next htrue => exact lib.str_ne _ htrue
  · rw [lib.str_text]
    decide

theorem networkOf_text {network : String} (h : network ≠ "") {members : List (String × Json)}
    (hnetwork : Json.getD "network" .null members = .str network) : networkOf lib members = network := by
  have htrue : (Json.str network).truthy = true := decide_eq_true h
  rw [networkOf, hnetwork, Json.orElse, if_pos htrue, lib.str_text]

theorem defaultNodePort_ne (network : String) : defaultNodePort network ≠ 0 := by
  unfold defaultNodePort
  split_ifs <;> decide

theorem nodePortOf_int {network : String} {port : Int} (h : port ≠ 0)
    (hport : Json.getD "node_port" .null members = .int port) : nodePortOf network members = .ok port := by
  have htrue : (Json.int port).truthy = true := decide_eq_true h
  rw [nodePortOf, hport, Json.orElse, if_pos htrue]
  rfl

theorem nodePortOf_missing {network : String} (hport : Json.getD "node_port" .null members = .null) :
    nodePortOf network members = .ok (defaultNodePort network) := by
  rw [nodePortOf, hport]
  rfl

variable {set : OperatorSet} {fanout : Int} {data : Json}

/-- A set of operators that were read, with a port and a network. It is read as it is if its operators and its
    domains are. -/
theorem normalizeOperatorSet_toJson_iff
    (hoperators : normalizeOperators lib set.minRootMirrors [] items = .ok set.operators)
    (hitems : items ≠ []) (hnetwork : set.network ≠ "") (hport : set.nodePort ≠ 0)
    (hfanout : 1 ≤ set.operatorAppendFanout) :
    normalizeOperatorSet lib set.toJson = .ok set ↔
      (∀ record ∈ set.operators, record.name ≠ "" ∧ Text.strip record.url = record.url) ∧
        asDomainList lib (.arr (set.operatorCoreDomains.map .str)) = .ok set.operatorCoreDomains := by
  rw [← normalizeOperators_toJson_iff hoperators, toJson, normalizeOperatorSet_obj]
  have hlisted : operatorItems (.arr (set.operators.map OperatorRecord.toJson))
      = .ok (set.operators.map OperatorRecord.toJson) := by
    cases hset : set.operators with
    | nil =>
      have hlength := length_normalizeOperators hoperators
      rw [hset, List.length_nil, eq_comm, List.length_eq_zero_iff] at hlength
      exact absurd hlength hitems
    | cons record rest => rfl
  constructor
  · rintro ⟨listed, fanout', h⟩
    have heq : listed = set.operators.map OperatorRecord.toJson := Except.ok.inj (h.listed.symm.trans hlisted)
    have hread := h.operators
    rw [heq] at hread
    exact ⟨hread, h.domains⟩
  · rintro ⟨hread, hdomains⟩
    exact ⟨_, set.operatorAppendFanout, hlisted, rfl, rfl, (max_eq_right hfanout).symm, hdomains, hread,
      (networkOf_text hnetwork rfl).symm, nodePortOf_int hport rfl⟩

end OperatorSet

/-! ## Sets with a candidate -/

namespace OperatorAdmission

open OperatorSet

variable {lib : TextLibrary} {members : List (String × Json)} {items : List Json} {fanout minRootMirrors : Int}
  {set proposed : OperatorSet} {base : SetData} {operator : Json} {candidate : OperatorRecord}

/-- The fan-out of a set is missing or not zero. -/
def KeepsFanout (members : List (String × Json)) : Prop :=
  ∀ value, AssocList.get? "operator_append_fanout" members = some value → value.truthy = true

/-- The domains of a set are missing or not empty. -/
def KeepsDomains (members : List (String × Json)) : Prop :=
  Json.getD "operator_core_domains" .null members ≠ .arr []

/-- A number that is false is zero. -/
theorem eq_zero_of_not_truthy {value : Json} {n : Int} (h : ¬ value.truthy = true) (hn : value.toInt = .ok n) :
    n = 0 := by
  cases value with
  | bool b =>
    cases b with
    | false => exact (Except.ok.inj hn).symm
    | true => exact absurd rfl h
  | int m =>
    have hm : m = 0 := by simpa [Json.truthy] using h
    rw [hm] at hn
    exact (Except.ok.inj hn).symm
  | str s =>
    have hs : s = "" := by simpa [Json.truthy] using h
    rw [hs] at hn
    have hnone : Text.intOfText "" = none := by decide
    rw [Json.toInt, hnone] at hn
    cases hn
  | null | arr | obj => cases hn

/-- The fan-out that is copied is the one that was read, unless this was zero. -/
theorem copied_fanout {read copied : Int}
    (hread : (Json.getD "operator_append_fanout" (.int defaultOperatorAppendFanout) members).toInt = .ok read)
    (hcopied : ((Json.getD "operator_append_fanout" .null members).orElse (.int defaultOperatorAppendFanout)).toInt
      = .ok copied) :
    max 1 copied = max 1 read ↔ KeepsFanout members := by
  unfold KeepsFanout
  unfold Json.getD at hread hcopied
  cases hget : AssocList.get? "operator_append_fanout" members with
  | none =>
    rw [hget] at hread hcopied
    cases hread
    cases hcopied
    exact iff_of_true rfl fun value hvalue => nomatch hvalue
  | some value =>
    rw [hget, Option.getD_some] at hread hcopied
    by_cases htrue : value.truthy = true
    · rw [Json.orElse, if_pos htrue, hread] at hcopied
      cases hcopied
      refine iff_of_true rfl fun other hother => ?_
      cases hother
      exact htrue
    · rw [Json.orElse, if_neg htrue] at hcopied
      cases hcopied
      rw [eq_zero_of_not_truthy htrue hread]
      exact iff_of_false (by decide) fun hall => htrue (hall value rfl)

/-- The domains that are copied are those that were read, unless there were none. -/
theorem copied_domains {value : Json} {read domains : List String} {copied : List Json}
    (hread : asDomainList lib value = .ok read)
    (hcopied : (value.orElse (.arr (defaultOperatorCoreDomains.map .str))).elements = .ok copied)
    (hdomains : asDomainList lib (.arr copied) = .ok domains) : domains = read ↔ value ≠ .arr [] := by
  have hdefault : copied = defaultOperatorCoreDomains.map .str → domains = defaultOperatorCoreDomains := by
    rintro rfl
    exact Except.ok.inj (hdomains.symm.trans asDomainList_default)
  unfold asDomainList at hread
  split at hread
  · cases hread
    exact iff_of_true (hdefault (Except.ok.inj hcopied).symm) (by simp)
  · next texts =>
    cases texts with
    | nil =>
      cases hread
      rw [hdefault (Except.ok.inj hcopied).symm]
      exact iff_of_false (by simp [defaultOperatorCoreDomains, dedupe]) (by simp)
    | cons text texts =>
      obtain rfl : text :: texts = copied := Except.ok.inj hcopied
      exact iff_of_true (Except.ok.inj (hdomains.symm.trans hread)) (by simp)
  · cases hread

/-- What is copied from a set that was read. -/
structure CopiedFrom (lib : TextLibrary) (members : List (String × Json)) (items : List Json) (set : OperatorSet)
    (base : SetData) : Prop where
  network : base.network = set.network
  minRootMirrors : base.minRootMirrors = set.minRootMirrors
  operators : base.operators = items
  fanout_iff : max 1 base.operatorAppendFanout = set.operatorAppendFanout ↔ KeepsFanout members
  domains_iff : ∀ domains, asDomainList lib (.arr base.operatorCoreDomains) = .ok domains →
    (domains = set.operatorCoreDomains ↔ KeepsDomains members)
  domains_default : ¬ KeepsDomains members → set.operatorCoreDomains = [] ∧
    base.operatorCoreDomains = defaultOperatorCoreDomains.map .str

theorem copiedFrom_of_operatorSetData (h : ReadAs lib members items fanout set)
    (hbase : operatorSetData lib (.obj members) = .ok base) : CopiedFrom lib members items set base := by
  obtain ⟨_, ⟨⟩, hbase⟩ := Check.bind_eq_ok.1 hbase
  obtain ⟨min, hmin, hbase⟩ := Check.bind_eq_ok.1 hbase
  obtain ⟨copied, hcopied, hbase⟩ := Check.bind_eq_ok.1 hbase
  obtain ⟨domains, hdomains, hbase⟩ := Check.bind_eq_ok.1 hbase
  obtain ⟨operators, hoperators, hbase⟩ := Check.bind_eq_ok.1 hbase
  cases hbase
  refine ⟨h.network.symm, Except.ok.inj (hmin.symm.trans h.minRootMirrors), ?_, ?_,
    fun _ hread => copied_domains h.domains hdomains hread, ?_⟩
  · have hitems := h.listed
    unfold operatorItems at hitems
    split at hitems
    · next item rest hget =>
      cases hitems
      rw [hget] at hoperators
      exact (Except.ok.inj hoperators).symm
    · cases hitems
  · rw [h.operatorAppendFanout]
    exact copied_fanout h.appendFanout hcopied
  · intro hnot
    have hempty : Json.getD "operator_core_domains" .null members = .arr [] := not_not.1 hnot
    have hread := h.domains
    rw [hempty] at hread hdomains
    exact ⟨(Except.ok.inj hread).symm, (Except.ok.inj hdomains).symm⟩

/-! ## The candidate -/

/-- A record of a candidate. -/
structure IsCandidate (candidate : OperatorRecord) : Prop where
  name_ne : candidate.name ≠ ""
  strip_name : Text.strip candidate.name = candidate.name
  rstrip_url : Text.rstripChar '/' candidate.url = candidate.url
  strip_publicKey : Text.strip candidate.publicKey = candidate.publicKey
  urls_ne : ∀ url ∈ candidate.mirrors ++ candidate.proofArchives, url ≠ ""

theorem ne_of_normalizeHttpUrl {label url : String} {value : Json}
    (h : normalizeHttpUrl lib label value = .ok url) : url ≠ "" := by
  obtain ⟨parsed, hparsed, h⟩ := Check.bind_eq_ok.1 h
  obtain ⟨hhost, h⟩ := Check.check_bind_eq_ok.1 h
  obtain ⟨-, h⟩ := Check.check_bind_eq_ok.1 h
  obtain rfl : operatorUrl lib value = url := Except.ok.inj h
  rw [Check.require_eq_ok, hasHttpHost, Bool.and_eq_true] at hhost
  intro hempty
  rw [hempty] at hparsed
  exact of_decide_eq_true hhost.2 (lib.urlparse_empty parsed hparsed)

theorem ne_of_normalizeHttpUrls {label : String} {urls : List String}
    (h : normalizeHttpUrls lib label items = .ok urls) : ∀ url ∈ urls, url ≠ "" := by
  induction items generalizing urls with
  | nil =>
    cases h
    exact fun _ hurl => absurd hurl List.not_mem_nil
  | cons item rest ih =>
    obtain ⟨url, hurl, h⟩ := Check.bind_eq_ok.1 h
    obtain ⟨more, hmore, h⟩ := Check.bind_eq_ok.1 h
    cases h
    exact List.forall_mem_cons.2 ⟨ne_of_normalizeHttpUrl hurl, ih hmore⟩

/-- A candidate is read from an object, and has the key that this names. -/
theorem normalizeOperatorRecord_spec
    (h : normalizeOperatorRecord lib operator minRootMirrors = .ok candidate) :
    IsCandidate candidate ∧ ∃ members, operator = .obj members ∧
      candidate.publicKey = Text.strip (lib.str (Json.getD "public_key" (.str "") members)) := by
  unfold normalizeOperatorRecord at h
  split at h
  · next listed =>
    obtain ⟨-, h⟩ := Check.check_bind_eq_ok.1 h
    obtain ⟨hname, h⟩ := Check.check_bind_eq_ok.1 h
    obtain ⟨url, hurl, h⟩ := Check.bind_eq_ok.1 h
    obtain ⟨key, -, h⟩ := Check.bind_eq_ok.1 h
    obtain ⟨mirrorItems, -, h⟩ := Check.bind_eq_ok.1 h
    obtain ⟨mirrors, hmirrors, h⟩ := Check.bind_eq_ok.1 h
    obtain ⟨archiveItems, -, h⟩ := Check.bind_eq_ok.1 h
    obtain ⟨archives, harchives, h⟩ := Check.bind_eq_ok.1 h
    obtain ⟨-, h⟩ := Check.check_bind_eq_ok.1 h
    obtain ⟨-, h⟩ := Check.check_bind_eq_ok.1 h
    obtain ⟨operatorOrigin, -, h⟩ := Check.bind_eq_ok.1 h
    obtain ⟨mirrorOrigins, -, h⟩ := Check.bind_eq_ok.1 h
    obtain ⟨-, h⟩ := Check.check_bind_eq_ok.1 h
    obtain ⟨archiveOrigins, -, h⟩ := Check.bind_eq_ok.1 h
    obtain ⟨-, h⟩ := Check.check_bind_eq_ok.1 h
    obtain ⟨mirrorCount, -, h⟩ := Check.bind_eq_ok.1 h
    obtain ⟨-, h⟩ := Check.check_bind_eq_ok.1 h
    obtain ⟨archiveCount, -, h⟩ := Check.bind_eq_ok.1 h
    obtain ⟨-, h⟩ := Check.check_bind_eq_ok.1 h
    obtain rfl := Except.ok.inj h
    obtain ⟨parsed, -, hurl⟩ := Check.bind_eq_ok.1 hurl
    obtain ⟨-, hurl⟩ := Check.check_bind_eq_ok.1 hurl
    obtain ⟨-, hurl⟩ := Check.check_bind_eq_ok.1 hurl
    obtain rfl := Except.ok.inj hurl
    refine ⟨⟨Check.require_eq_ok.1 hname, Text.strip_strip _, Text.rstripChar_rstripChar _ _, Text.strip_strip _, ?_⟩,
      listed, rfl, rfl⟩
    intro url hmem
    rcases List.mem_append.1 hmem with hmem | hmem
    · exact ne_of_normalizeHttpUrls hmirrors url (mem_dedupe.1 hmem)
    · exact ne_of_normalizeHttpUrls harchives url (mem_dedupe.1 hmem)
  · cases h

/-- No address of a record has blanks at its ends. -/
def IsTidy (record : OperatorRecord) : Prop :=
  ∀ url ∈ record.url :: (record.mirrors ++ record.proofArchives), Text.strip url = url

/-- A candidate is entered as it is if its addresses are tidy. -/
theorem reread_eq_iff (h : IsCandidate candidate) (index : Nat) : reread lib index candidate = candidate ↔ IsTidy candidate := by
  have hmirrors := @filter_strip_eq_iff candidate.mirrors fun url hurl => h.urls_ne url (List.mem_append_left _ hurl)
  have harchives := @filter_strip_eq_iff candidate.proofArchives fun url hurl =>
    h.urls_ne url (List.mem_append_right _ hurl)
  rw [IsTidy, List.forall_mem_cons, List.forall_mem_append, ← hmirrors, ← harchives,
    ← @operatorUrl_text_iff lib _ h.rstrip_url]
  constructor
  · intro heq
    have hurl : (reread lib index candidate).url = candidate.url := by rw [heq]
    have hmirrors' : (reread lib index candidate).mirrors = candidate.mirrors := by rw [heq]
    have harchives' : (reread lib index candidate).proofArchives = candidate.proofArchives := by rw [heq]
    unfold reread at hurl hmirrors' harchives'
    exact ⟨hurl, hmirrors', harchives'⟩
  · rintro ⟨hurl, hmirrors', harchives'⟩
    rw [reread, operatorName_text h.name_ne h.strip_name, hurl, h.strip_publicKey, hmirrors', harchives']

/-- A set to which a candidate was added. -/
structure Added (lib : TextLibrary) (members : List (String × Json)) (items : List Json) (set : OperatorSet)
    (candidate : OperatorRecord) (proposed : OperatorSet) : Prop where
  network : proposed.network = set.network
  nodePort : proposed.nodePort = defaultNodePort set.network
  minRootMirrors : proposed.minRootMirrors = set.minRootMirrors
  fanout_pos : 1 ≤ proposed.operatorAppendFanout
  fanout_iff : proposed.operatorAppendFanout = set.operatorAppendFanout ↔ KeepsFanout members
  domains_iff : proposed.operatorCoreDomains = set.operatorCoreDomains ↔ KeepsDomains members
  domains_default : ¬ KeepsDomains members → set.operatorCoreDomains = [] ∧
    proposed.operatorCoreDomains = defaultOperatorCoreDomains
  operators : proposed.operators = set.operators ++ [reread lib set.operators.length candidate]
  read : normalizeOperators lib proposed.minRootMirrors [] (items ++ [candidate.toJson]) = .ok proposed.operators

/-- The set with a candidate is the one that was read, with the candidate and with what was copied of it. -/
theorem added_of_operatorSetWithCandidate (h : ReadAs lib members items fanout set)
    (hadd : operatorSetWithCandidate lib (.obj members) operator = .ok proposed) :
    ∃ candidate, normalizeOperatorRecord lib operator set.minRootMirrors = .ok candidate ∧
      Added lib members items set candidate proposed := by
  obtain ⟨base, hbase, hadd⟩ := Check.bind_eq_ok.1 hadd
  obtain ⟨candidate, hcandidate, hadd⟩ := Check.bind_eq_ok.1 hadd
  obtain ⟨names, -, hadd⟩ := Check.bind_eq_ok.1 hadd
  obtain ⟨urls, -, hadd⟩ := Check.bind_eq_ok.1 hadd
  obtain ⟨keys, -, hadd⟩ := Check.bind_eq_ok.1 hadd
  obtain ⟨-, hadd⟩ := Check.check_bind_eq_ok.1 hadd
  obtain ⟨-, hadd⟩ := Check.check_bind_eq_ok.1 hadd
  obtain ⟨-, hadd⟩ := Check.check_bind_eq_ok.1 hadd
  have hcopied := copiedFrom_of_operatorSetData h hbase
  obtain ⟨listed, fanout', hread⟩ := normalizeOperatorSet_obj.1 hadd
  have hnetwork : proposed.network = base.network := by
    rw [hread.network, networkOf_text _ rfl]
    rw [hcopied.network, h.network]
    exact networkOf_ne members
  have hmin : proposed.minRootMirrors = base.minRootMirrors := (Except.ok.inj hread.minRootMirrors).symm
  have hport : proposed.nodePort = defaultNodePort proposed.network :=
    Except.ok.inj (hread.nodePort.symm.trans (nodePortOf_missing rfl))
  have hfanout : proposed.operatorAppendFanout = max 1 base.operatorAppendFanout := by
    rw [hread.operatorAppendFanout, ← Except.ok.inj hread.appendFanout]
  have hlisted : listed = items ++ [candidate.toJson] := by
    have heq := hread.listed
    change operatorItems (.arr (base.operators ++ [candidate.toJson])) = .ok listed at heq
    rw [hcopied.operators] at heq
    cases items with
    | nil => exact (Except.ok.inj heq).symm
    | cons item rest => exact (Except.ok.inj heq).symm
  have hoperators := hread.operators
  rw [hlisted, hmin, hcopied.minRootMirrors, normalizeOperators_append] at hoperators
  obtain ⟨first, last, hfirst, hlast, hoperators⟩ := hoperators
  obtain rfl : set.operators = first := Except.ok.inj (h.operators.symm.trans hfirst)
  obtain ⟨record, hrecord, hlast⟩ := Check.bind_eq_ok.1 hlast
  obtain ⟨-, hlast⟩ := Check.check_bind_eq_ok.1 hlast
  cases hlast
  rw [hcopied.minRootMirrors] at hcandidate
  refine ⟨candidate, hcandidate, ?_⟩
  refine { network := ?_, nodePort := ?_, minRootMirrors := ?_, fanout_pos := ?_, fanout_iff := ?_, domains_iff := ?_,
           domains_default := ?_, operators := ?_, read := ?_ }
  · rw [hnetwork, hcopied.network]
  · rw [hport, hnetwork, hcopied.network]
  · rw [hmin, hcopied.minRootMirrors]
  · rw [hfanout]
    exact le_max_left _ _
  · rw [hfanout]
    exact hcopied.fanout_iff
  · exact hcopied.domains_iff _ hread.domains
  · intro hnot
    obtain ⟨hempty, hdefault⟩ := hcopied.domains_default hnot
    have hdomains := hread.domains
    change asDomainList lib (.arr base.operatorCoreDomains) = _ at hdomains
    rw [hdefault] at hdomains
    exact ⟨hempty, Except.ok.inj (hdomains.symm.trans asDomainList_default)⟩
  · rw [hoperators, normalizeOperator_toJson_eq_ok hrecord]
    rfl
  · rw [← hlisted]
    exact hread.operators

/-- **What an admission changes.** Only the list of operators grows, and by the candidate, exactly where the node port is
    that of the network, no number or list is put in for another, and the addresses of the candidate are tidy. -/
theorem Added.eq_iff (h : Added lib members items set candidate proposed) (hcandidate : IsCandidate candidate) :
    proposed = { set with operators := set.operators ++ [candidate] } ↔
      set.nodePort = defaultNodePort set.network ∧ KeepsFanout members ∧ KeepsDomains members ∧ IsTidy candidate := by
  rw [← h.fanout_iff, ← h.domains_iff, ← @reread_eq_iff lib _ hcandidate set.operators.length]
  constructor
  · intro heq
    have hport := h.nodePort
    have hoperators := h.operators
    rw [heq] at hport hoperators
    refine ⟨hport, by rw [heq], by rw [heq], ?_⟩
    exact (List.cons.inj (List.append_cancel_left hoperators)).1.symm
  · rintro ⟨hport, hfanout, hdomains, hrecord⟩
    have hoperators := h.operators
    rw [hrecord] at hoperators
    have hport' := h.nodePort.trans hport.symm
    have hnetwork := h.network
    have hmin := h.minRootMirrors
    cases proposed
    dsimp only at *
    rw [hnetwork, hport', hmin, hfanout, hdomains, hoperators]

/-- **Which sets are read as they are.** The set with a candidate is, where the names and addresses in it and its domains
    are. -/
theorem Added.fixed_iff (h : Added lib members items set candidate proposed) (hcandidate : IsCandidate candidate)
    (hset : ReadAs lib members items fanout set) :
    normalizeOperatorSet lib proposed.toJson = .ok proposed ↔
      (∀ record ∈ set.operators, record.name ≠ "" ∧ Text.strip record.url = record.url) ∧
        Text.strip (operatorUrl lib (.str candidate.url)) = operatorUrl lib (.str candidate.url) ∧
          asDomainList lib (.arr (set.operatorCoreDomains.map .str)) = .ok set.operatorCoreDomains := by
  have hnetwork : proposed.network ≠ "" := by
    rw [h.network, hset.network]
    exact networkOf_ne members
  have hport : proposed.nodePort ≠ 0 := by
    rw [h.nodePort]
    exact defaultNodePort_ne _
  have hname : (reread lib set.operators.length candidate).name ≠ "" := by
    rw [reread, operatorName_text hcandidate.name_ne hcandidate.strip_name]
    exact hcandidate.name_ne
  have hdomains : asDomainList lib (.arr (proposed.operatorCoreDomains.map .str)) = .ok proposed.operatorCoreDomains ↔
      asDomainList lib (.arr (set.operatorCoreDomains.map .str)) = .ok set.operatorCoreDomains := by
    by_cases hkeeps : KeepsDomains members
    · rw [h.domains_iff.2 hkeeps]
    · obtain ⟨hempty, hdefault⟩ := h.domains_default hkeeps
      rw [hempty, hdefault]
      exact iff_of_true asDomainList_default rfl
  rw [normalizeOperatorSet_toJson_iff h.read (by simp) hnetwork hport h.fanout_pos, hdomains, h.operators,
    List.forall_mem_append, List.forall_mem_singleton, and_assoc]
  refine and_congr_right fun _ => and_congr_left fun _ => ?_
  exact ⟨And.right, fun hurl => ⟨hname, hurl⟩⟩

end OperatorAdmission
