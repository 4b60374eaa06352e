import Mathlib.Data.List.TakeWhile
import TableOps.Proofs.Number.Decimal
import TableOps.Proofs.Text.Characters
import TableOps.Proofs.Text.Cuts
import TableOps.Proofs.Url.Percent
import TableOps.Settings
import TableOps.Url.Location

/-!
# Settings and their URL

Settings that say where a database is are put together to a URL, and a driver connects with what is
read off that URL again. The user and the password are coded, so that no character of them is taken
for a delimiter, and the database stands behind all that is read for the credentials.

* `Url.IsScheme`, `Url.IsPlainHost` — the schemes of URLs, and hosts that are plain names.
* `Url.isLocationChar` — the characters that a location is not cut at.
* `Url.split_of_parts` — a URL of a scheme and a location is split between them.
* `Settings.location_toUrl` — the location in the URL of settings.

Main statement: `Location.ofUrl_toUrl`, the credentials, the port and the host of settings are read
off their URL.
-/

namespace TableOps

/-! ## Splitting a URL -/

namespace Url

/-- A scheme: a letter, and then letters, digits and the characters `+-.`. -/
def IsScheme (scheme : String) : Prop :=
  ∃ c cs, scheme.toList = c :: cs ∧ isLetter c ∧ ∀ d ∈ cs, isSchemeChar d

/-- A character of a plain host name: a letter, a digit, a dot or a hyphen. Letters and digits may be
of any script; beyond ASCII only what could be taken for a delimiter is left out. -/
def isHostChar (c : Char) : Bool :=
  isLetter c || isDecimal c || c == '.' || c == '-' ||
    (0x80 ≤ c.toNat && !delimiterLike.contains c)

/-- A host that is a plain name. -/
def IsPlainHost (host : String) : Prop :=
  host ≠ "" ∧ ∀ c ∈ host.toList, isHostChar c

/-- The characters that mean something in a location or end it. -/
def delimiters : List Char :=
  ['/', '?', '#', '[', ']', '\t', '\r', '\n'] ++ delimiterLike

/-- A character that a location is not cut at, and that is not dropped or refused there. -/
def isLocationChar (c : Char) : Bool :=
  !delimiters.contains c

theorem ne_of_isLocationChar {c d : Char} (h : isLocationChar c) (hd : d ∈ delimiters) : c ≠ d := by
  rintro rfl
  have hcontains : delimiters.contains c = true := List.contains_iff_mem.mpr hd
  rw [isLocationChar, hcontains] at h
  cases h

theorem toNat_of_isSchemeChar {c : Char} (h : isSchemeChar c) : c.toNat < 128 := by
  have hle : ∀ d : Char, c ≤ d → d.toNat < 128 → c.toNat < 128 := fun d hd => Nat.lt_of_le_of_lt hd
  simp only [isSchemeChar, isLetter, isDecimal, Bool.or_eq_true, Bool.and_eq_true,
    decide_eq_true_eq, beq_iff_eq] at h
  rcases h with ((((⟨-, h⟩ | ⟨-, h⟩) | ⟨-, h⟩) | rfl) | rfl) | rfl
  · exact hle _ h (by decide)
  · exact hle _ h (by decide)
  · exact hle _ h (by decide)
  all_goals decide

/-- A character of a scheme is none that a URL is cut at. -/
theorem of_isSchemeChar {c : Char} (h : isSchemeChar c) :
    c ≠ ':' ∧ isDropped c = false ∧ isLeading c = false := by
  obtain ⟨n, rfl⟩ := Text.exists_ascii (toNat_of_isSchemeChar h)
  revert n
  decide

/-- A coded character is none that a location is cut at. -/
theorem of_isPlain_or_percent {c : Char} (h : Percent.isPlain c ∨ c = '%') :
    isLocationChar c ∧ c ≠ '@' ∧ c ≠ ':' := by
  have hascii : c.toNat < 128 := by
    rcases h with h | rfl
    · exact (Percent.toNat_of_isPlain h).1
    · decide
  obtain ⟨n, rfl⟩ := Text.exists_ascii hascii
  revert n
  decide +kernel

/-- A digit is none that a location is cut at. -/
theorem of_isDecimal {c : Char} (h : isDecimal c) : isLocationChar c ∧ c ≠ '@' := by
  have hscheme : isSchemeChar c := by simp [isSchemeChar, h]
  obtain ⟨n, rfl⟩ := Text.exists_ascii (toNat_of_isSchemeChar hscheme)
  revert n
  decide +kernel

/-- A character of a host is none that a location is cut at. -/
theorem of_isHostChar {c : Char} (h : isHostChar c) :
    isLocationChar c ∧ c ≠ '@' ∧ c ≠ ':' ∧ c ≠ '%' := by
  by_cases hascii : c.toNat < 128
  · obtain ⟨n, rfl⟩ := Text.exists_ascii hascii
    revert n
    decide +kernel
  · -- beyond ASCII the only delimiters are those that are left out
    have hbelow : ∀ d : Char, d.toNat < 128 → c ≠ d := fun d hd heq => hascii (heq ▸ hd)
    have hscheme : ¬ isSchemeChar c := fun h => hascii (toNat_of_isSchemeChar h)
    simp only [isSchemeChar, Bool.or_eq_true, not_or] at hscheme
    obtain ⟨⟨⟨⟨hletter, hdecimal⟩, -⟩, hhyphen⟩, hdot⟩ := hscheme
    simp only [isHostChar, hletter, hdecimal, hhyphen, hdot, Bool.or_eq_true, Bool.and_eq_true,
      false_or, Bool.false_eq_true] at h
    have hlike : c ∉ delimiterLike := by simpa using h.2
    have hnot : c ∉ delimiters := by
      intro hc
      rcases List.mem_append.mp hc with hc | hc
      · have hall : ['/', '?', '#', '[', ']', '\t', '\r', '\n'].all (·.toNat < 128) = true := by
          decide
        exact hbelow c (of_decide_eq_true (List.all_eq_true.mp hall c hc)) rfl
      · exact hlike hc
    refine ⟨?_, hbelow _ (by decide), hbelow _ (by decide), hbelow _ (by decide)⟩
    simp [isLocationChar, hnot]

/-! ### Scheme and location -/

/-- The scheme is what stands in front of the first colon. -/
theorem cutScheme_eq {c : Char} {cs : List Char} (hletter : isLetter c)
    (hall : ∀ d ∈ cs, isSchemeChar d) (rest : List Char) :
    cutScheme (c :: cs ++ ':' :: rest) = (String.ofList ((c :: cs).map Text.foldChar), rest) := by
  have hfirst : isSchemeChar c := by simp [isSchemeChar, hletter]
  have hchars : ∀ d ∈ c :: cs, isSchemeChar d := List.forall_mem_cons.mpr ⟨hfirst, hall⟩
  have hcolon : ':' ∉ c :: cs := fun hmem => (of_isSchemeChar (hchars _ hmem)).1 rfl
  rw [cutScheme, Text.cutFirst?_append hcolon]
  simp [hletter, List.all_eq_true.mpr hall]

section

variable {location : List Char} (h : ∀ c ∈ location, isLocationChar c)

include h

/-- The location is what stands in front of the next slash. -/
theorem cutLocation_eq (rest : List Char) :
    cutLocation ('/' :: '/' :: (location ++ '/' :: rest)) = (location, '/' :: rest) := by
  have hinside : ∀ d ∈ location, (d != '/' && d != '?' && d != '#') = true := fun d hd => by
    have hne : ∀ e ∈ delimiters, d ≠ e := fun e he => ne_of_isLocationChar (h d hd) he
    simp [hne '/' (by decide), hne '?' (by decide), hne '#' (by decide)]
  show ((location ++ '/' :: rest).takeWhile _, (location ++ '/' :: rest).dropWhile _) = _
  rw [List.takeWhile_append_of_pos hinside, List.dropWhile_append_of_pos hinside,
    List.takeWhile_cons_of_neg (by decide), List.dropWhile_cons_of_neg (by decide), List.append_nil]

theorem checkBrackets_eq_ok : checkBrackets location = .ok () := by
  have hnone : ∀ d ∈ delimiters, location.contains d = false := fun d hd => by
    simpa using fun hmem => ne_of_isLocationChar (h d hmem) hd rfl
  rw [checkBrackets, hnone '[' (by decide), hnone ']' (by decide)]

theorem checkCharacters_eq_ok : checkCharacters location = .ok () := by
  rw [checkCharacters, if_neg]
  simp only [List.any_eq_true, List.contains_iff_mem, not_exists, not_and]
  exact fun d hd hlike => ne_of_isLocationChar (h d hd) (List.mem_append_right _ hlike) rfl

theorem filter_location : location.filter (!isDropped ·) = location :=
  List.filter_eq_self.mpr fun d hd => by
    have hne : ∀ e ∈ delimiters, d ≠ e := fun e he => ne_of_isLocationChar (h d hd) he
    simp [isDropped, hne '\t' (by decide), hne '\r' (by decide), hne '\n' (by decide)]

end

/-- A URL of a scheme and a location is split between them. -/
theorem split_of_parts {scheme text : String} (hscheme : IsScheme scheme)
    {location rest : List Char} (hlocation : ∀ c ∈ location, isLocationChar c)
    (htext : text.toList = scheme.toList ++ ':' :: '/' :: '/' :: (location ++ '/' :: rest)) :
    ∃ u, split text = .ok u ∧ u.location = location := by
  obtain ⟨c, cs, hcs, hletter, hall⟩ := hscheme
  have hfirst : isSchemeChar c := by simp [isSchemeChar, hletter]
  have hchars : ∀ d ∈ c :: cs, isSchemeChar d := List.forall_mem_cons.mpr ⟨hfirst, hall⟩
  -- nothing is dropped but behind the location
  have hclean : (text.toList.dropWhile isLeading).filter (!isDropped ·) =
      c :: cs ++ ':' :: '/' :: '/' :: (location ++ '/' :: rest.filter (!isDropped ·)) := by
    have hfront : (c :: cs).filter (!isDropped ·) = c :: cs :=
      List.filter_eq_self.mpr fun d hd => by simp [(of_isSchemeChar (hchars d hd)).2.1]
    have hcolon : (!isDropped ':') = true := by decide
    have hslash : (!isDropped '/') = true := by decide
    rw [htext, hcs, List.cons_append,
      List.dropWhile_cons_of_neg (by simp [(of_isSchemeChar hfirst).2.2]), ← List.cons_append,
      List.filter_append, hfront]
    simp only [List.filter_cons, List.filter_append, filter_location hlocation, hcolon, hslash,
      if_true]
  unfold split
  dsimp only
  rw [hclean, cutScheme_eq hletter hall]
  dsimp only
  rw [cutLocation_eq hlocation]
  dsimp only
  rw [checkBrackets_eq_ok hlocation, checkCharacters_eq_ok hlocation]
  exact ⟨_, rfl, rfl⟩

/-! ### The parts of a location -/

/-- A text behind a colon, if there is one. -/
def behindColon (text : Option (List Char)) : List Char :=
  (text.map (':' :: ·)).getD []

theorem takeWhile_behindColon {front : List Char} (h : ':' ∉ front) (text : Option (List Char)) :
    (front ++ behindColon text).takeWhile (· != ':') = front := by
  have hfront : ∀ c ∈ front, (c != ':') = true := fun c hc => by
    simpa using fun heq : c = ':' => h (heq ▸ hc)
  rw [List.takeWhile_append_of_pos hfront]
  cases text with
  | none => exact List.append_nil front
  | some back =>
    show front ++ (':' :: back).takeWhile (· != ':') = front
    rw [List.takeWhile_cons_of_neg (by decide), List.append_nil]

theorem drop_behindColon {front : List Char} (h : ':' ∉ front) (text : Option (List Char)) :
    ((front ++ behindColon text).dropWhile (· != ':')).drop 1 = text.getD [] := by
  have hfront : ∀ c ∈ front, (c != ':') = true := fun c hc => by
    simpa using fun heq : c = ':' => h (heq ▸ hc)
  rw [List.dropWhile_append_of_pos hfront]
  cases text with
  | none => rfl
  | some back =>
    show ((':' :: back).dropWhile (· != ':')).drop 1 = back
    rw [List.dropWhile_cons_of_neg (by decide), List.drop_one, List.tail_cons]

theorem of_mem_behindColon {text : Option (List Char)} {c : Char} (h : c ∈ behindColon text) :
    c = ':' ∨ ∃ back, text = some back ∧ c ∈ back := by
  cases text with
  | none => cases h
  | some back => exact (List.mem_cons.mp h).imp_right fun h => ⟨back, rfl, h⟩

/-- A location with credentials: a user, a password, a host and a port, as they are written. -/
def locationOf (user : List Char) (password : Option (List Char)) (host : List Char)
    (port : Option (List Char)) : List Char :=
  (user ++ behindColon password) ++ '@' :: (host ++ behindColon port)

section Parts

variable {u : Url} {user host : List Char} {password port : Option (List Char)}

/-- The credentials and the host of a location are cut at its last at-sign. -/
theorem cutLast?_locationOf (hsign : '@' ∉ host ++ behindColon port) :
    Text.cutLast? '@' (locationOf user password host port) =
      some (user ++ behindColon password, host ++ behindColon port) :=
  Text.cutLast?_append hsign _

theorem username_of_location (hu : u.location = locationOf user password host port)
    (hsign : '@' ∉ host ++ behindColon port) (hcolon : ':' ∉ user) :
    u.username = filled? user := by
  rw [username, credentials?, hu, cutLast?_locationOf hsign]
  exact congrArg filled? (takeWhile_behindColon hcolon password)

theorem password_of_location (hu : u.location = locationOf user password host port)
    (hsign : '@' ∉ host ++ behindColon port) (hcolon : ':' ∉ user) :
    u.password = filled? (password.getD []) := by
  rw [Url.password, credentials?, hu, cutLast?_locationOf hsign]
  exact congrArg filled? (drop_behindColon hcolon password)

theorem hostAndPort_of_location (hu : u.location = locationOf user password host port)
    (hsign : '@' ∉ host ++ behindColon port) (hbracket : '[' ∉ host ++ behindColon port)
    (hcolon : ':' ∉ host) : u.hostAndPort = (host, port.getD []) := by
  rw [hostAndPort, withoutCredentials, hu, cutLast?_locationOf hsign]
  dsimp only
  rw [Text.cutFirst?_eq_none_iff.mpr hbracket]
  dsimp only
  rw [takeWhile_behindColon hcolon, drop_behindColon hcolon]

theorem hostname_of_hostAndPort (hu : u.hostAndPort.1 = host) (hne : host ≠ [])
    (hpercent : '%' ∉ host) : u.hostname = some (Text.lower (String.ofList host)) := by
  have hall : ∀ c ∈ host, (c != '%') = true := fun c hc => by
    simpa using fun heq : c = '%' => hpercent (heq ▸ hc)
  have hfilled : filled? host = some (String.ofList host) := by simp [filled?, hne]
  rw [hostname, hu, hfilled, Option.map_some, String.toList_ofList]
  dsimp only
  rw [List.takeWhile_eq_self_iff.mpr hall, List.dropWhile_eq_nil_iff.mpr hall]
  exact congrArg some String.append_empty

/-- A port is read as the number it is written from. -/
theorem port_of_hostAndPort {n : Nat} (hu : u.hostAndPort.2 = Nat.toDigits 10 n)
    (hn : n ≤ 65535) : u.port = .ok (some n) := by
  have hshort : (Nat.toDigits 10 n).length ≤ 5 :=
    (Nat.length_toDigits_le_iff (by decide) (by decide)).mpr (by omega)
  have hdecimal : (Nat.toDigits 10 n).all isDecimal = true :=
    List.all_eq_true.mpr fun c hc => Decimal.isDecimal_of_mem hc
  have hlimit : ¬ Integer.digitLimit < (Nat.toDigits 10 n).length := by
    unfold Integer.digitLimit
    omega
  rw [port, hu, if_neg (by simp), if_pos hdecimal, if_neg hlimit,
    numberOf_toDigits, if_pos hn]

end Parts

end Url

/-! ## Settings -/

namespace Settings

variable {s : Settings} {user : String}

/-- The port as it is written in a URL. -/
def portDigits (s : Settings) : Option (List Char) :=
  (s.port.filter (· ≠ 0)).map fun n => (toString n).toList

/-- The location in the URL of settings, with the credentials coded. -/
def location (s : Settings) (user : String) : List Char :=
  Url.locationOf (Percent.encode user).toList
    ((given? s.password).map fun password => (Percent.encode password).toList)
    s.host.toList s.portDigits

/-- The URL of settings is made of the scheme, the location and the database. -/
theorem toList_toUrl (hurl : given? s.url = none) (huser : given? s.user = some user) :
    s.toUrl.toList = s.scheme.toList ++ ':' :: '/' :: '/' ::
      (s.location user ++ '/' :: (Value.ofText? s.database).plainText.toList) := by
  have hport : s.portText.toList = Url.behindColon s.portDigits := by
    unfold portText portDigits
    cases s.port.filter (· ≠ 0) with
    | none => rfl
    | some n => exact String.toList_append
  rw [toUrl, hurl, credentials, huser, location, Url.locationOf, ← hport]
  cases given? s.password with
  | none => simp [String.toList_append, Url.behindColon]
  | some password => simp [String.toList_append, Url.behindColon]

/-- A port that is set is written with its digits. -/
theorem portDigits_eq (hport : ∀ n, s.port = some n → 1 ≤ n ∧ n ≤ 65535) :
    ∃ port : Option Nat, s.port = port.map Int.ofNat ∧ s.portDigits = port.map (Nat.toDigits 10) ∧
      ∀ n, port = some n → n ≤ 65535 := by
  cases hs : s.port with
  | none => exact ⟨none, rfl, by rw [portDigits, hs]; rfl, fun n hn => by cases hn⟩
  | some n =>
    obtain ⟨hlow, hhigh⟩ := hport n hs
    obtain ⟨m, rfl⟩ := Int.eq_ofNat_of_zero_le (show 0 ≤ n by omega)
    have hne : (m : Int) ≠ 0 := by omega
    have hdigits : s.portDigits = some (Nat.toDigits 10 m) := by
      rw [portDigits, hs, Option.filter_some_pos (by simpa using hne), Option.map_some,
        Decimal.toList_natCast]
    refine ⟨some m, rfl, hdigits, fun k hk => ?_⟩
    cases hk
    omega

/-- No part of the location in the URL of settings is taken for a delimiter. -/
theorem of_mem_location (hhost : Url.IsPlainHost s.host) {port : Option Nat}
    (hport : s.portDigits = port.map (Nat.toDigits 10)) :
    (∀ c ∈ s.location user, Url.isLocationChar c) ∧
      ∀ c ∈ s.host.toList ++ Url.behindColon s.portDigits, Url.isLocationChar c ∧ c ≠ '@' := by
  have hcolon : Url.isLocationChar ':' ∧ ':' ≠ '@' := by decide
  have hsign : Url.isLocationChar '@' := by decide
  have hcoded : ∀ text, ∀ c ∈ (Percent.encode text).toList, Url.isLocationChar c :=
    fun text c hc => (Url.of_isPlain_or_percent (Percent.isPlain_or_percent hc)).1
  have hplace : ∀ c ∈ s.host.toList ++ Url.behindColon s.portDigits,
      Url.isLocationChar c ∧ c ≠ '@' := by
    intro c hc
    rcases List.mem_append.mp hc with hc | hc
    · obtain ⟨hchar, hne, -⟩ := Url.of_isHostChar (hhost.2 c hc)
      exact ⟨hchar, hne⟩
    · rcases Url.of_mem_behindColon hc with rfl | ⟨digits, hdigits, hc⟩
      · exact hcolon
      · rw [hport] at hdigits
        obtain ⟨n, -, rfl⟩ := Option.map_eq_some_iff.mp hdigits
        exact Url.of_isDecimal (Decimal.isDecimal_of_mem hc)
  refine ⟨fun c hc => ?_, hplace⟩
  rcases List.mem_append.mp hc with hc | hc
  · rcases List.mem_append.mp hc with hc | hc
    · exact hcoded user c hc
    · rcases Url.of_mem_behindColon hc with rfl | ⟨coded, hcoded', hc⟩
      · exact hcolon.1
      · obtain ⟨password, -, rfl⟩ := Option.map_eq_some_iff.mp hcoded'
        exact hcoded password c hc
  · rcases List.mem_cons.mp hc with rfl | hc
    · exact hsign
    · exact (hplace c hc).1

end Settings

/-! ## Reading the location back -/

namespace Location

theorem filled?_encode {text : String} (h : text ≠ "") :
    (Url.filled? (Percent.encode text).toList).map Percent.decode = some text := by
  have hne : (Percent.encode text).toList.isEmpty = false := by
    simpa using Percent.encode_ne_empty h
  rw [Url.filled?, hne, if_neg (by decide), Option.map_some, String.ofList_toList,
    Percent.decode_encode]

/-- What a driver connects with is what the settings say: the user, the password and the port as they
are, and the host in lower case. -/
theorem ofUrl_toUrl {s : Settings} {user : String} (hurl : Settings.given? s.url = none)
    (hscheme : Url.IsScheme s.scheme) (hhost : Url.IsPlainHost s.host)
    (huser : s.user = some user) (hfilled : user ≠ "")
    (hport : ∀ n, s.port = some n → 1 ≤ n ∧ n ≤ 65535) :
    ∃ l, ofUrl s.toUrl = .ok l ∧ l.user = some user ∧ l.password = Settings.given? s.password ∧
      l.port.map Int.ofNat = s.port ∧ l.host = some (Text.lower s.host) := by
  have hgiven : Settings.given? s.user = some user := by
    rw [huser]
    exact Option.filter_some_pos (by simpa using hfilled)
  obtain ⟨port, hsport, hdigits, hbound⟩ := Settings.portDigits_eq hport
  obtain ⟨hall, hplace⟩ : (∀ c ∈ s.location user, Url.isLocationChar c) ∧ _ :=
    Settings.of_mem_location hhost hdigits
  obtain ⟨u, hsplit, hlocation⟩ := Url.split_of_parts hscheme hall (Settings.toList_toUrl hurl hgiven)
  have hcoded : ':' ∉ (Percent.encode user).toList := fun hc =>
    (Url.of_isPlain_or_percent (Percent.isPlain_or_percent hc)).2.2 rfl
  have hsign : '@' ∉ s.host.toList ++ Url.behindColon s.portDigits := fun hc => (hplace _ hc).2 rfl
  have hbracket : '[' ∉ s.host.toList ++ Url.behindColon s.portDigits := fun hc =>
    Url.ne_of_isLocationChar (hplace _ hc).1 (by decide) rfl
  have hplain : ∀ c ∈ s.host.toList, c ≠ ':' ∧ c ≠ '%' := fun c hc =>
    (Url.of_isHostChar (hhost.2 c hc)).2.2
  have hparts := Url.hostAndPort_of_location hlocation hsign hbracket fun hc => (hplain _ hc).1 rfl
  have huser' : u.username.map Percent.decode = some user := by
    rw [Url.username_of_location hlocation hsign hcoded, filled?_encode hfilled]
  have hpassword : u.password.map Percent.decode = Settings.given? s.password := by
    rw [Url.password_of_location hlocation hsign hcoded]
    cases hp : Settings.given? s.password with
    | none => rfl
    | some password =>
      refine filled?_encode fun hempty => ?_
      rw [hempty, Settings.given?] at hp
      obtain ⟨-, hp⟩ := Option.filter_eq_some_iff.mp hp
      cases hp
  have hname : u.hostname = some (Text.lower s.host) := by
    have hne : s.host.toList ≠ [] := fun hnil => hhost.1 (String.toList_eq_nil_iff.mp hnil)
    rw [Url.hostname_of_hostAndPort (congrArg Prod.fst hparts) hne fun hc => (hplain _ hc).2 rfl,
      String.ofList_toList]
  have hnumber : u.port = .ok port := by
    cases hp : port with
    | none =>
      rw [hdigits, hp] at hparts
      rw [Url.port, hparts]
      rfl
    | some n =>
      rw [hdigits, hp] at hparts
      exact Url.port_of_hostAndPort (congrArg Prod.snd hparts) (hbound n hp)
  refine ⟨⟨u.hostname, u.username.map Percent.decode, u.password.map Percent.decode, u.pathName,
    port⟩, ?_, huser', hpassword, hsport.symm, hname⟩
  rw [ofUrl, hsplit]
  show ofParts u = _
  rw [ofParts, hnumber]
  rfl

/-- Settings with delimiters in the credentials and in the name of the database. -/
def delimited : Settings where
  url := none
  scheme := "postgresql"
  host := "DB-1.Example"
  port := some 5432
  user := some "a@b:c/ü"
  password := some "p%41#?[\n😀"
  database := some "x@y:1/z?#"
  aliasName := none
  poolSize := ⟨1, Nat.one_pos⟩
  stored := none
  style := none

theorem ofUrl_toUrl_delimited :
    ∃ l, ofUrl delimited.toUrl = .ok l ∧ l.user = some "a@b:c/ü" ∧
      l.password = some "p%41#?[\n😀" ∧ l.port.map Int.ofNat = some 5432 ∧
      l.host = some "db-1.example" := by
  have hscheme : Url.IsScheme delimited.scheme :=
    ⟨'p', "ostgresql".toList, rfl, rfl, List.all_eq_true.mp (by decide +kernel)⟩
  have hhost : Url.IsPlainHost delimited.host :=
    ⟨by decide, List.all_eq_true.mp (by decide +kernel)⟩
  have hport : ∀ n, delimited.port = some n → 1 ≤ n ∧ n ≤ 65535 := by
    rintro n ⟨⟩
    decide
  have hlower : Text.lower delimited.host = "db-1.example" := by decide +kernel
  rw [← hlower]
  exact ofUrl_toUrl rfl hscheme hhost rfl (by decide) hport

end Location

end TableOps
