import Torana.Http
import Torana.Net

/-!
The grammar of RFC 3986 as far as the URIs of the scheme `http` use it: hosts, authorities
and the origin form of a request target, over the characters of a text.
-/
namespace Torana.Uris

/-! ## Characters -/

def isUnreserved (c : Char) : Bool := c.isAlphanum || "-._~".toList.contains c
def isSubDelim (c : Char) : Bool := "!$&'()*+,;=".toList.contains c
def isHexDigit (c : Char) : Bool := (Net.toDigit 16 c).isSome

/-- Characters of this kind and percent-encoded bytes. -/
def isEncoded (p : Char → Bool) : List Char → Bool
  | '%' :: high :: low :: rest => isHexDigit high && isHexDigit low && isEncoded p rest
  | c :: rest => p c && isEncoded p rest
  | [] => true

/-! ## Paths and queries -/

/-- The characters of segments, with the slash between them, and of a query behind its `?`. -/
def isQueryChar (c : Char) : Bool := isUnreserved c || isSubDelim c || ":@/?".toList.contains c

/-- The origin form of a request target: an absolute path, and a query behind the first `?`. -/
def isOriginForm (s : List Char) : Bool := s.head? = some '/' && isEncoded isQueryChar s

/-! ## Authorities -/

def isRegName (s : List Char) : Bool := s ≠ [] && isEncoded (fun c => isUnreserved c || isSubDelim c) s

/-- The text of an address in the characters of one, read to its end. -/
def isIpv6Address (s : List Char) : Bool :=
  s.all (fun c => isHexDigit c || c = ':' || c = '.') && (Net.readIpv6Addr s).any fun r => r.2 = []

def isIpvFuture : List Char → Bool
  | [] => false
  | v :: rest =>
    let version := rest.takeWhile isHexDigit
    let address := rest.drop (version.length + 1)
    (v = 'v' || v = 'V') && version ≠ [] && rest[version.length]? = some '.' && address ≠ [] &&
      address.all fun c => isUnreserved c || isSubDelim c || c = ':'

def isIpLiteral : List Char → Bool
  | '[' :: rest => rest.getLast? = some ']' && (isIpv6Address rest.dropLast || isIpvFuture rest.dropLast)
  | _ => false

/-- A host: an address in brackets or a registered name. The grammar of IPv4 addresses lies
    within that of names, and the scheme `http` asks for a host that is not empty. -/
def isHost (s : List Char) : Bool := isIpLiteral s || isRegName s

def isUserinfo (s : List Char) : Bool := isEncoded (fun c => isUnreserved c || isSubDelim c || c = ':') s

structure Authority where
  userinfo : Option (List Char)
  host : List Char
  port : Option (List Char)
  deriving DecidableEq

/-- The host in front of a port: up to the bracket that closes it, or to the first colon. -/
def hostPart : List Char → List Char
  | '[' :: rest => '[' :: (rest.takeWhile (· ≠ ']') ++ (rest.dropWhile (· ≠ ']')).take 1)
  | s => s.takeWhile (· ≠ ':')

/-- The host and the port that follow the user information. -/
def readHostPort (userinfo : Option (List Char)) (s : List Char) : Option Authority :=
  let host := hostPart s
  if isHost host then
    match s.drop host.length with
    | [] => some ⟨userinfo, host, none⟩
    | ':' :: port => if port.all Char.isDigit then some ⟨userinfo, host, some port⟩ else none
    | _ => none
  else none

def readAuthority (s : List Char) : Option Authority :=
  if '@' ∈ s then
    let userinfo := s.takeWhile (· ≠ '@')
    if isUserinfo userinfo then readHostPort (some userinfo) (s.drop (userinfo.length + 1)) else none
  else readHostPort none s

/-! ## What a host is made of -/

/-- The characters of a host. -/
def isHostChar (c : Char) : Bool := isUnreserved c || isSubDelim c || ":[]%".toList.contains c

theorem encoded_chars {p q : Char → Bool} (weaker : ∀ c, p c → q c) (hex : ∀ c, isHexDigit c → q c) (percent : q '%')
    {s : List Char} (encoded : isEncoded p s = true) : ∀ c ∈ s, q c = true := by
  induction s using isEncoded.induct with
  | case1 high low rest ih =>
    simp only [isEncoded, Bool.and_eq_true] at encoded
    obtain ⟨⟨first, second⟩, behind⟩ := encoded
    intro c member
    simp only [List.mem_cons] at member
    rcases member with rfl | rfl | rfl | inside
    · exact percent
    · exact hex _ first
    · exact hex _ second
    · exact ih behind c inside
  | case2 c rest plain ih =>
    rw [isEncoded.eq_2 _ _ _ plain, Bool.and_eq_true] at encoded
    intro d member
    rcases List.mem_cons.mp member with rfl | inside
    · exact weaker _ encoded.1
    · exact ih encoded.2 d inside
  | case3 =>
    intro c member
    cases member

theorem isAlphanum_iff {c : Char} :
    c.isAlphanum = true ↔ (c.isUpper = true ∨ c.isLower = true) ∨ c.isDigit = true := by
  rw [← Bool.or_eq_true, ← Bool.or_eq_true]
  rfl

theorem hexDigit_alphanum {c : Char} (hex : isHexDigit c = true) : c.isAlphanum = true := by
  unfold isHexDigit Net.toDigit at hex
  rw [isAlphanum_iff]
  by_cases digit : c.isDigit = true
  · exact .inr digit
  · by_cases lower : c.isLower = true
    · exact .inl (.inr lower)
    · by_cases upper : c.isUpper = true
      · exact .inl (.inl upper)
      · simp [digit, lower, upper] at hex

/-- The characters of an address in brackets. -/
def isAddressChar (c : Char) : Bool := isUnreserved c || isSubDelim c || c = ':'

theorem hexDigit_unreserved {c : Char} (hex : isHexDigit c = true) : isUnreserved c = true := by
  rw [isUnreserved, hexDigit_alphanum hex, Bool.true_or]

theorem ipv6_chars {s : List Char} (address : isIpv6Address s = true) : ∀ c ∈ s, isAddressChar c = true := by
  intro c member
  have legal := List.all_eq_true.mp (Bool.and_eq_true _ _ ▸ address).1 c member
  simp only [Bool.or_eq_true, decide_eq_true_eq] at legal
  rcases legal with (hex | rfl) | rfl
  · simp [isAddressChar, hexDigit_unreserved hex]
  · decide
  · decide

theorem ipvFuture_chars {s : List Char} (address : isIpvFuture s = true) : ∀ c ∈ s, isAddressChar c = true := by
  cases s with
  | nil => cases address
  | cons v rest =>
    simp only [isIpvFuture, Bool.and_eq_true, Bool.or_eq_true, decide_eq_true_eq] at address
    obtain ⟨⟨⟨⟨first, -⟩, dot⟩, -⟩, behind⟩ := address
    have parts : rest = rest.takeWhile isHexDigit ++ '.' :: rest.drop ((rest.takeWhile isHexDigit).length + 1) := by
      obtain ⟨bound, here⟩ := List.getElem?_eq_some_iff.mp dot
      rw [← here, ← List.drop_eq_getElem_cons bound]
      exact (List.prefix_iff_eq_append.mp (List.takeWhile_prefix _)).symm
    intro c member
    rcases List.mem_cons.mp member with rfl | inside
    · rcases first with rfl | rfl <;> decide
    · rw [parts] at inside
      rcases List.mem_append.mp inside with version | address
      · simp [isAddressChar, hexDigit_unreserved (List.all_eq_true.mp List.all_takeWhile c version)]
      · rcases List.mem_cons.mp address with rfl | listed
        · decide
        · simpa [isAddressChar] using List.all_eq_true.mp behind c listed

theorem literal_inner {s : List Char} (literal : isIpLiteral s = true) :
    ∃ inner, s = '[' :: (inner ++ [']']) ∧ ∀ c ∈ inner, isAddressChar c = true := by
  unfold isIpLiteral at literal
  split at literal
  · rename_i rest
    simp only [Bool.and_eq_true, Bool.or_eq_true, decide_eq_true_eq] at literal
    obtain ⟨closed, address⟩ := literal
    refine ⟨rest.dropLast, ?_, address.elim ipv6_chars ipvFuture_chars⟩
    rw [List.dropLast_append_getLast? _ closed]
  · cases literal

theorem hexDigit_hostChar (c : Char) (hex : isHexDigit c = true) : isHostChar c = true := by
  simp [isHostChar, hexDigit_unreserved hex]

theorem addressChar_hostChar (c : Char) (legal : isAddressChar c = true) : isHostChar c = true := by
  simp only [isAddressChar, Bool.or_eq_true, decide_eq_true_eq] at legal
  rcases legal with (unreserved | delim) | rfl
  · simp [isHostChar, unreserved]
  · simp [isHostChar, delim]
  · decide

theorem host_chars {s : List Char} (host : isHost s = true) : ∀ c ∈ s, isHostChar c = true := by
  rcases Bool.or_eq_true _ _ ▸ host with literal | name
  · obtain ⟨inner, rfl, legal⟩ := literal_inner literal
    intro c member
    simp only [List.mem_cons, List.mem_append, List.not_mem_nil, or_false] at member
    rcases member with rfl | inside | rfl
    · decide
    · exact addressChar_hostChar c (legal c inside)
    · decide
  · have encoded := (Bool.and_eq_true _ _ ▸ name).2
    refine encoded_chars ?_ hexDigit_hostChar (by decide) encoded
    intro c plain
    rw [isHostChar, plain, Bool.true_or]

theorem alphanum_range {c : Char} (alphanum : c.isAlphanum = true) :
    (48 ≤ c.toNat ∧ c.toNat ≤ 57) ∨ (65 ≤ c.toNat ∧ c.toNat ≤ 90) ∨ (97 ≤ c.toNat ∧ c.toNat ≤ 122) := by
  rcases isAlphanum_iff.mp alphanum with (upper | lower) | digit
  · exact .inr (.inl (of_decide_eq_true upper))
  · obtain ⟨above, below⟩ := (Bool.and_eq_true _ _).mp lower
    exact .inr (.inr ⟨of_decide_eq_true above, of_decide_eq_true below⟩)
  · exact .inl (Char.isDigit_iff_toNat.mp digit)

/-- A host is visible, and no delimiter of a URI or of a message is in it. -/
theorem hostChar_visible {c : Char} (legal : isHostChar c = true) :
    33 ≤ c.toNat ∧ c.toNat < 127 ∧ c ≠ '@' ∧ c ∉ "/?#".toList := by
  have special : ∀ d ∈ "-._~".toList ++ "!$&'()*+,;=".toList ++ ":[]%".toList,
      33 ≤ d.toNat ∧ d.toNat < 127 ∧ d ≠ '@' ∧ d ∉ "/?#".toList := List.forall_iff_forall_mem.mp (by decide)
  simp only [isHostChar, isUnreserved, isSubDelim, Bool.or_eq_true, List.contains_iff_mem] at legal
  rcases legal with ((alphanum | mark) | delim) | bracket
  · have range := alphanum_range alphanum
    have delimiters : ∀ d ∈ "@/?#".toList, ¬d.isAlphanum := List.forall_iff_forall_mem.mp (by decide)
    refine ⟨by omega, by omega, ?_, ?_⟩
    · rintro rfl
      exact delimiters '@' (by decide) alphanum
    · intro delimiter
      exact delimiters c (List.mem_cons_of_mem _ delimiter) alphanum
  · exact special c (List.mem_append_left _ (List.mem_append_left _ mark))
  · exact special c (List.mem_append_left _ (List.mem_append_right _ delim))
  · exact special c (List.mem_append_right _ bracket)

/-! ## A host and a port make an authority -/

theorem takeWhile_ne {c : Char} {first : List Char} (absent : c ∉ first) (rest : List Char) :
    (first ++ c :: rest).takeWhile (· ≠ c) = first ∧ (first ++ c :: rest).dropWhile (· ≠ c) = c :: rest := by
  have all : ∀ d ∈ first, decide (d ≠ c) = true := by
    intro d member
    rw [decide_eq_true_eq]
    rintro rfl
    exact absent member
  rw [List.takeWhile_append_of_pos all, List.dropWhile_append_of_pos all]
  simp

theorem takeWhile_absent {c : Char} {s : List Char} (absent : c ∉ s) : s.takeWhile (· ≠ c) = s := by
  refine List.takeWhile_eq_self_iff.mpr ?_
  intro d member
  rw [decide_eq_true_eq]
  rintro rfl
  exact absent member

theorem regName_chars {s : List Char} (name : isRegName s = true) :
    ∀ c ∈ s, (isUnreserved c || isSubDelim c || c = '%') = true := by
  refine encoded_chars ?_ ?_ (by decide) (Bool.and_eq_true _ _ ▸ name).2
  · intro c plain
    rw [plain, Bool.true_or]
  · intro c hex
    simp [hexDigit_unreserved hex]

/-- A host is read up to its end, whether or not a port follows. -/
theorem hostPart_made {host tail : List Char} (legal : isHost host = true) (ends : tail = [] ∨ tail.head? = some ':') :
    hostPart (host ++ tail) = host := by
  rcases Bool.or_eq_true _ _ ▸ legal with literal | name
  · obtain ⟨inner, rfl, chars⟩ := literal_inner literal
    have closed : ']' ∉ inner := fun member => absurd (chars _ member) (by decide)
    obtain ⟨taken, dropped⟩ := takeWhile_ne closed tail
    rw [List.cons_append, List.append_assoc, List.singleton_append, hostPart, taken, dropped]
    rfl
  · have chars := regName_chars name
    have bare : hostPart (host ++ tail) = (host ++ tail).takeWhile (· ≠ ':') := by
      unfold hostPart
      split
      · rename_i rest same
        cases host with
        | nil => exact absurd name (by decide)
        | cons c behind =>
          cases same
          exact absurd (chars '[' List.mem_cons_self) (by decide)
      · rfl
    have inside : ∀ c ∈ host, decide (c ≠ ':') = true := by
      intro c member
      rw [decide_eq_true_eq]
      rintro rfl
      exact absurd (chars _ member) (by decide)
    rw [bare, List.takeWhile_append_of_pos inside]
    rcases ends with rfl | colon
    · simp
    · rw [List.eq_cons_of_mem_head? colon]
      simp

theorem readHostPort_alone {host : List Char} (legal : isHost host = true) :
    readHostPort none host = some ⟨none, host, none⟩ := by
  have whole : hostPart (host ++ []) = host := hostPart_made legal (.inl rfl)
  rw [List.append_nil] at whole
  simp only [readHostPort, whole, legal, if_true, List.drop_length]

theorem readAuthority_made {host port : List Char} (legal : isHost host = true) (digits : port.all Char.isDigit = true) :
    readAuthority (host ++ ':' :: port) = some ⟨none, host, some port⟩ := by
  have plain : '@' ∉ host ++ ':' :: port := by
    intro member
    rcases List.mem_append.mp member with inside | behind
    · exact (hostChar_visible (host_chars legal _ inside)).2.2.1 rfl
    · rcases List.mem_cons.mp behind with same | digit
      · cases same
      · exact absurd (List.all_eq_true.mp digits _ digit) (by decide)
  have front : hostPart (host ++ ':' :: port) = host := hostPart_made legal (.inr rfl)
  rw [readAuthority, if_neg plain]
  simp only [readHostPort, front, legal, if_true, List.drop_left, digits]

theorem hostPart_front (s : List Char) : hostPart s <+: s := by
  unfold hostPart
  split
  · rename_i rest
    refine (List.prefix_cons_inj '[').mpr ?_
    conv => rhs; rw [← List.takeWhile_append_dropWhile (p := (· ≠ ']')) (l := rest)]
    exact (List.prefix_append_right_inj _).mpr (List.take_prefix 1 _)
  · exact List.takeWhile_prefix _

theorem readHostPort_host {userinfo : Option (List Char)} {s : List Char} {authority : Authority}
    (read : readHostPort userinfo s = some authority) :
    isHost authority.host = true ∧ ∀ c ∈ s, isHostChar c = true := by
  simp only [readHostPort] at read
  by_cases legal : isHost (hostPart s) = true
  · rw [if_pos legal] at read
    have parts : hostPart s ++ s.drop (hostPart s).length = s := List.prefix_iff_eq_append.mp (hostPart_front s)
    split at read
    · rename_i whole
      cases read
      rw [whole, List.append_nil] at parts
      refine ⟨legal, ?_⟩
      intro c member
      rw [← parts] at member
      exact host_chars legal c member
    · rename_i port whole
      rw [whole] at parts
      by_cases digits : port.all Char.isDigit = true
      · rw [if_pos digits] at read
        cases read
        refine ⟨legal, ?_⟩
        intro c member
        rw [← parts] at member
        rcases List.mem_append.mp member with inside | behind
        · exact host_chars legal c inside
        · rcases List.mem_cons.mp behind with rfl | digit
          · decide
          · simp [isHostChar, isUnreserved, Char.isAlphanum, List.all_eq_true.mp digits c digit]
      · rw [if_neg digits] at read
        cases read
    · cases read
  · rw [if_neg legal] at read
    cases read

/-- The host that was read is one, and no delimiter is in what it was read from. -/
theorem readAuthority_host {s : List Char} {authority : Authority} (read : readAuthority s = some authority) :
    isHost authority.host = true ∧ ∀ c ∈ s, isHostChar c = true ∨ c = '@' := by
  unfold readAuthority at read
  by_cases at_ : '@' ∈ s
  · rw [if_pos at_] at read
    by_cases legal : isUserinfo (s.takeWhile (· ≠ '@')) = true
    · simp only [if_pos legal] at read
      obtain ⟨host, behind⟩ := readHostPort_host read
      refine ⟨host, ?_⟩
      obtain ⟨before, after, rfl, first⟩ := List.eq_append_cons_of_mem at_
      have taken := (takeWhile_ne first after).1
      rw [taken] at legal behind
      rw [List.drop_length_add_append, List.drop_succ_cons, List.drop_zero] at behind
      intro c member
      rcases List.mem_append.mp member with user | rest
      · exact .inl (encoded_chars addressChar_hostChar hexDigit_hostChar (by decide) legal c user)
      · rcases List.mem_cons.mp rest with same | inside
        · exact .inr same
        · exact .inl (behind c inside)
    · simp only [if_neg legal] at read
      cases read
  · rw [if_neg at_] at read
    obtain ⟨host, chars⟩ := readHostPort_host read
    exact ⟨host, fun c member => .inl (chars c member)⟩

/-! ## Parsers -/

/-- What a parser that follows the grammar does with an absolute URI: the authority ends at the
    first delimiter of a path, a query or a fragment, and what is no URI is rejected. Of the legal
    texts it has to accept those that are covered. -/
structure FollowsRfc3986 (parseUri : String → Except String Http.Uri) (covered : String → Prop) : Prop where
  accepts : ∀ authority pathAndQuery : String, (readAuthority authority.toList).isSome →
    isOriginForm pathAndQuery.toList → covered ("http://" ++ authority ++ pathAndQuery) →
    ∃ uri, parseUri ("http://" ++ authority ++ pathAndQuery) = .ok uri
  reads : ∀ authority pathAndQuery : String, ∀ uri, (readAuthority authority.toList).isSome →
    isOriginForm pathAndQuery.toList → parseUri ("http://" ++ authority ++ pathAndQuery) = .ok uri →
    uri = ⟨some "http", some authority, some pathAndQuery⟩
  delimits : ∀ rest uri, parseUri ("http://" ++ rest) = .ok uri →
    uri.authority = some (String.ofList (rest.toList.takeWhile fun c => !"/?#".toList.contains c))
  rejects : ∀ rest uri, parseUri ("http://" ++ rest) = .ok uri → ∀ c ∈ rest.toList, 33 ≤ c.toNat ∧ c.toNat ≠ 127

/-- What the `http` crate covers: 65534 bytes, and no percent sign in an authority. -/
def isCovered (text : String) : Bool :=
  text.utf8ByteSize ≤ 65534 &&
    !((text.toList.drop "http://".length).takeWhile fun c => !"/?#".toList.contains c).contains '%'

/-- A parser for the URIs of the scheme `http` in which a path stands in front of a query. The
    fragment is dropped, and an empty path is `/`. -/
def parse (text : String) : Except String Http.Uri :=
  match Text.stripPrefix "http://".toList text.toList with
  | none => .error "invalid format"
  | some rest =>
    if !isCovered text then .error "uri not covered" else
    let authority := rest.takeWhile fun c => !"/?#".toList.contains c
    let target := (rest.drop authority.length).takeWhile (· ≠ '#')
    let fragment := (rest.drop authority.length).dropWhile (· ≠ '#')
    if (readAuthority authority).isNone then .error "invalid authority"
    else if !((target = [] || isOriginForm target) && isEncoded isQueryChar fragment.tail) then
      .error "invalid uri character"
    else .ok ⟨some "http", some (String.ofList authority), some (if target = [] then "/" else String.ofList target)⟩

theorem authority_visible {s : List Char} (legal : (readAuthority s).isSome) :
    ∀ c ∈ s, 33 ≤ c.toNat ∧ c.toNat < 127 ∧ c ∉ "/?#".toList := by
  obtain ⟨authority, read⟩ := Option.isSome_iff_exists.mp legal
  intro c member
  rcases (readAuthority_host read).2 c member with host | rfl
  · obtain ⟨low, high, -, delimiter⟩ := hostChar_visible host
    exact ⟨low, high, delimiter⟩
  · decide

theorem query_visible {s : List Char} (query : isEncoded isQueryChar s = true) :
    ∀ c ∈ s, 33 ≤ c.toNat ∧ c.toNat < 127 ∧ c ≠ '#' := by
  have visible : ∀ c, isHostChar c = true ∨ c ∈ "@/?".toList → 33 ≤ c.toNat ∧ c.toNat < 127 ∧ c ≠ '#' := by
    intro c legal
    rcases legal with host | mark
    · obtain ⟨low, high, -, delimiter⟩ := hostChar_visible host
      refine ⟨low, high, ?_⟩
      rintro rfl
      exact delimiter (by decide)
    · have marks : ∀ d ∈ "@/?".toList, 33 ≤ d.toNat ∧ d.toNat < 127 ∧ d ≠ '#' :=
        List.forall_iff_forall_mem.mp (by decide)
      exact marks c mark
  have chars := encoded_chars (q := fun c => isHostChar c || "@/?".toList.contains c) ?_ ?_ (by decide) query
  · intro c member
    have legal := chars c member
    rw [Bool.or_eq_true, List.contains_iff_mem] at legal
    exact visible c legal
  · intro c plain
    simp only [isQueryChar, isHostChar, Bool.or_eq_true] at plain ⊢
    rcases plain with (unreserved | delim) | mark
    · exact .inl (.inl (.inl unreserved))
    · exact .inl (.inl (.inr delim))
    · simp only [List.contains_iff_mem] at mark ⊢
      have either : ∀ d ∈ ":@/?".toList, d ∈ ":[]%".toList ∨ d ∈ "@/?".toList :=
        List.forall_iff_forall_mem.mp (by decide)
      exact (either c mark).imp .inr id
  · intro c hex
    rw [hexDigit_hostChar c hex, Bool.true_or]

theorem originForm_head {s : List Char} (origin : isOriginForm s = true) : s.head? = some '/' := by
  have head := (Bool.and_eq_true _ _ ▸ origin).1
  rw [decide_eq_true_eq] at head
  exact head

theorem originForm_visible {s : List Char} (origin : isOriginForm s = true) :
    ∀ c ∈ s, 33 ≤ c.toNat ∧ c.toNat < 127 ∧ c ≠ '#' :=
  query_visible (Bool.and_eq_true _ _ ▸ origin).2

theorem stripPrefix_append (start rest : List Char) : Text.stripPrefix start (start ++ rest) = some rest := by
  rw [Text.stripPrefix, if_pos (List.isPrefixOf_iff_prefix.mpr (List.prefix_append _ _)), List.drop_left]

theorem stripPrefix_some {start s rest : List Char} (stripped : Text.stripPrefix start s = some rest) :
    s = start ++ rest := by
  unfold Text.stripPrefix at stripped
  split at stripped
  · rename_i starts
    obtain ⟨behind, rfl⟩ := List.isPrefixOf_iff_prefix.mp starts
    rw [List.drop_left] at stripped
    rw [Option.some.inj stripped]
  · cases stripped

theorem dropWhile_ne (c : Char) (s : List Char) :
    s.dropWhile (· ≠ c) = [] ∨ ∃ tail, s.dropWhile (· ≠ c) = c :: tail := by
  induction s with
  | nil => exact .inl rfl
  | cons first rest ih =>
    by_cases same : first = c
    · exact .inr ⟨rest, by simp [same]⟩
    · rw [List.dropWhile_cons_of_pos (by simpa using same)]
      exact ih

theorem parse_http {rest : String} {uri : Http.Uri} (parsed : parse ("http://" ++ rest) = .ok uri) :
    ∃ authority target fragment, rest.toList = authority ++ (target ++ fragment) ∧
      authority = rest.toList.takeWhile (fun c => !"/?#".toList.contains c) ∧
      (readAuthority authority).isSome ∧ (target = [] ∨ isOriginForm target = true) ∧
      (fragment = [] ∨ ∃ tail, fragment = '#' :: tail ∧ isEncoded isQueryChar tail = true) ∧
      uri.authority = some (String.ofList authority) := by
  unfold parse at parsed
  rw [String.toList_append, stripPrefix_append] at parsed
  simp only at parsed
  split at parsed
  · cases parsed
  split at parsed
  · cases parsed
  · rename_i legal
    split at parsed
    · cases parsed
    · rename_i read
      rw [Bool.not_eq_true, Bool.not_eq_false', Bool.and_eq_true, Bool.or_eq_true, decide_eq_true_eq] at read
      cases parsed
      obtain ⟨origin, query⟩ := read
      generalize behind : rest.toList.drop (rest.toList.takeWhile fun c => !"/?#".toList.contains c).length = s at *
      refine ⟨_, s.takeWhile (· ≠ '#'), s.dropWhile (· ≠ '#'), ?_, rfl, ?_, origin, ?_, rfl⟩
      · rw [List.takeWhile_append_dropWhile, ← behind]
        exact (List.prefix_iff_eq_append.mp (List.takeWhile_prefix _)).symm
      · rw [Bool.not_eq_true, Option.isNone_eq_false_iff] at legal
        exact legal
      · rcases dropWhile_ne '#' s with whole | ⟨tail, hash⟩
        · exact .inl whole
        · rw [hash, List.tail_cons] at query
          exact .inr ⟨tail, hash, query⟩

theorem parse_covered {text : String} {uri : Http.Uri} (parsed : parse text = .ok uri) : isCovered text = true := by
  unfold parse at parsed
  split at parsed
  · cases parsed
  · cases covered : isCovered text with
    | true => rfl
    | false => simp [covered] at parsed

theorem parse_legal {authority pathAndQuery : String} (legal : (readAuthority authority.toList).isSome)
    (origin : isOriginForm pathAndQuery.toList) (covered : isCovered ("http://" ++ authority ++ pathAndQuery) = true) :
    parse ("http://" ++ authority ++ pathAndQuery) = .ok ⟨some "http", some authority, some pathAndQuery⟩ := by
  have visible := authority_visible legal
  have path := List.eq_cons_of_mem_head? (originForm_head origin)
  have taken : (authority.toList ++ pathAndQuery.toList).takeWhile (fun c => !"/?#".toList.contains c) =
      authority.toList := by
    rw [path, List.takeWhile_append_of_pos]
    · simp
    · intro c member
      simpa using (visible c member).2.2
  have unfragmented : ∀ c ∈ pathAndQuery.toList, decide (c ≠ '#') = true := by
    intro c member
    rw [decide_eq_true_eq]
    exact (originForm_visible origin c member).2.2
  have whole : pathAndQuery.toList.takeWhile (· ≠ '#') = pathAndQuery.toList :=
    List.takeWhile_eq_self_iff.mpr unfragmented
  have plain : pathAndQuery.toList.dropWhile (· ≠ '#') = [] := List.dropWhile_eq_nil_iff.mpr unfragmented
  have filled : pathAndQuery.toList ≠ [] := by
    rw [path]
    exact List.cons_ne_nil _ _
  unfold parse
  rw [covered, String.append_assoc, String.toList_append, stripPrefix_append, String.toList_append]
  simp only [taken, List.drop_left, whole, plain, filled, origin, List.tail_nil, isEncoded, decide_false, Bool.or_true,
    Bool.and_self, Bool.not_true, if_false, Bool.false_eq_true, String.ofList_toList]
  rw [if_neg (by rw [Bool.not_eq_true, Option.isNone_eq_false_iff]; exact legal)]

theorem follows_parse : FollowsRfc3986 parse (isCovered · = true) where
  accepts := fun authority pathAndQuery legal origin covered => ⟨_, parse_legal legal origin covered⟩
  reads := by
    intro authority pathAndQuery uri legal origin parsed
    rw [parse_legal legal origin (parse_covered parsed)] at parsed
    cases parsed
    rfl
  delimits := by
    intro rest uri parsed
    obtain ⟨authority, target, fragment, -, taken, -, -, -, same⟩ := parse_http parsed
    rw [same, taken]
  rejects := by
    intro rest uri parsed
    obtain ⟨authority, target, fragment, parts, -, legal, origin, query, -⟩ := parse_http parsed
    intro c member
    rw [parts] at member
    have visible : 33 ≤ c.toNat ∧ c.toNat < 127 := by
      rcases List.mem_append.mp member with inside | behind
      · exact ⟨(authority_visible legal c inside).1, (authority_visible legal c inside).2.1⟩
      · rcases List.mem_append.mp behind with path | hash
        · rcases origin with rfl | origin
          · cases path
          · exact ⟨(originForm_visible origin c path).1, (originForm_visible origin c path).2.1⟩
        · rcases query with rfl | ⟨tail, rfl, query⟩
          · cases hash
          · rcases List.mem_cons.mp hash with rfl | inside
            · decide
            · exact ⟨(query_visible query c inside).1, (query_visible query c inside).2.1⟩
    exact ⟨visible.1, by omega⟩

end Torana.Uris
