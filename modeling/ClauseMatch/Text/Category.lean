import ClauseMatch.Text.CodeRange

/-!
# General categories

The general category of every character, from a table of the assigned ranges. A code point in no
range is unassigned.
-/

namespace ClauseMatch

/-- The general category of a character. -/
inductive Category where
  | uppercaseLetter
  | lowercaseLetter
  | titlecaseLetter
  | modifierLetter
  | otherLetter
  | nonspacingMark
  | spacingMark
  | enclosingMark
  | decimalNumber
  | letterNumber
  | otherNumber
  | connectorPunctuation
  | dashPunctuation
  | openPunctuation
  | closePunctuation
  | initialPunctuation
  | finalPunctuation
  | otherPunctuation
  | mathSymbol
  | currencySymbol
  | modifierSymbol
  | otherSymbol
  | spaceSeparator
  | lineSeparator
  | paragraphSeparator
  | control
  | format
  | surrogate
  | privateUse
  | unassigned
deriving DecidableEq, Inhabited

namespace Category

/-- Every category with its two-letter abbreviation. -/
def abbreviations : List (String × Category) :=
  [("Lu", .uppercaseLetter), ("Ll", .lowercaseLetter), ("Lt", .titlecaseLetter),
   ("Lm", .modifierLetter), ("Lo", .otherLetter), ("Mn", .nonspacingMark),
   ("Mc", .spacingMark), ("Me", .enclosingMark), ("Nd", .decimalNumber),
   ("Nl", .letterNumber), ("No", .otherNumber), ("Pc", .connectorPunctuation),
   ("Pd", .dashPunctuation), ("Ps", .openPunctuation), ("Pe", .closePunctuation),
   ("Pi", .initialPunctuation), ("Pf", .finalPunctuation), ("Po", .otherPunctuation),
   ("Sm", .mathSymbol), ("Sc", .currencySymbol), ("Sk", .modifierSymbol),
   ("So", .otherSymbol), ("Zs", .spaceSeparator), ("Zl", .lineSeparator),
   ("Zp", .paragraphSeparator), ("Cc", .control), ("Cf", .format),
   ("Cs", .surrogate), ("Co", .privateUse), ("Cn", .unassigned)]

/-- The categories of letters. -/
def letters : List Category :=
  [.uppercaseLetter, .lowercaseLetter, .titlecaseLetter, .modifierLetter, .otherLetter]

/-- The categories of combining marks. -/
def marks : List Category := [.nonspacingMark, .spacingMark, .enclosingMark]

/-- The categories of numbers. -/
def numbers : List Category := [.decimalNumber, .letterNumber, .otherNumber]

/-- The category with the given abbreviation. -/
def ofAbbreviation? (name : String) : Option Category := abbreviations.lookup name

/-- The assigned ranges, each labelled with its category. -/
def tableLines : List String :=
  ["0-1fCc 20Zs 21-23Po 24Sc 25-27Po 28Ps 29Pe 2aPo 2bSm 2cPo 2dPd 2e-2fPo 30-39Nd 3a-3bPo",
   "3c-3eSm 3f-40Po 41-5aLu 5bPs 5cPo 5dPe 5eSk 5fPc 60Sk 61-7aLl 7bPs 7cSm 7dPe 7eSm 7f-9fCc",
   "a0Zs a1Po a2-a5Sc a6So a7Po a8Sk a9So aaLo abPi acSm adCf aeSo afSk b0So b1Sm b2-b3No b4Sk",
   "b5Ll b6-b7Po b8Sk b9No baLo bbPf bc-beNo bfPo c0-d6Lu d7Sm d8-deLu df-f6Ll f7Sm f8-ffLl",
   "100Lu 101Ll 102Lu 103Ll 104Lu 105Ll 106Lu 107Ll 108Lu 109Ll 10aLu 10bLl 10cLu 10dLl 10eLu",
   "10fLl 110Lu 111Ll 112Lu 113Ll 114Lu 115Ll 116Lu 117Ll 118Lu 119Ll 11aLu 11bLl 11cLu 11dLl",
   "11eLu 11fLl 120Lu 121Ll 122Lu 123Ll 124Lu 125Ll 126Lu 127Ll 128Lu 129Ll 12aLu 12bLl 12cLu",
   "12dLl 12eLu 12fLl 130Lu 131Ll 132Lu 133Ll 134Lu 135Ll 136Lu 137-138Ll 139Lu 13aLl 13bLu",
   "13cLl 13dLu 13eLl 13fLu 140Ll 141Lu 142Ll 143Lu 144Ll 145Lu 146Ll 147Lu 148-149Ll 14aLu",
   "14bLl 14cLu 14dLl 14eLu 14fLl 150Lu 151Ll 152Lu 153Ll 154Lu 155Ll 156Lu 157Ll 158Lu 159Ll",
   "15aLu 15bLl 15cLu 15dLl 15eLu 15fLl 160Lu 161Ll 162Lu 163Ll 164Lu 165Ll 166Lu 167Ll 168Lu",
   "169Ll 16aLu 16bLl 16cLu 16dLl 16eLu 16fLl 170Lu 171Ll 172Lu 173Ll 174Lu 175Ll 176Lu 177Ll",
   "178-179Lu 17aLl 17bLu 17cLl 17dLu 17e-180Ll 181-182Lu 183Ll 184Lu 185Ll 186-187Lu 188Ll",
   "189-18bLu 18c-18dLl 18e-191Lu 192Ll 193-194Lu 195Ll 196-198Lu 199-19bLl 19c-19dLu 19eLl",
   "19f-1a0Lu 1a1Ll 1a2Lu 1a3Ll 1a4Lu 1a5Ll 1a6-1a7Lu 1a8Ll 1a9Lu 1aa-1abLl 1acLu 1adLl",
   "1ae-1afLu 1b0Ll 1b1-1b3Lu 1b4Ll 1b5Lu 1b6Ll 1b7-1b8Lu 1b9-1baLl 1bbLo 1bcLu 1bd-1bfLl",
   "1c0-1c3Lo 1c4Lu 1c5Lt 1c6Ll 1c7Lu 1c8Lt 1c9Ll 1caLu 1cbLt 1ccLl 1cdLu 1ceLl 1cfLu 1d0Ll",
   "1d1Lu 1d2Ll 1d3Lu 1d4Ll 1d5Lu 1d6Ll 1d7Lu 1d8Ll 1d9Lu 1daLl 1dbLu 1dc-1ddLl 1deLu 1dfLl",
   "1e0Lu 1e1Ll 1e2Lu 1e3Ll 1e4Lu 1e5Ll 1e6Lu 1e7Ll 1e8Lu 1e9Ll 1eaLu 1ebLl 1ecLu 1edLl 1eeLu",
   "1ef-1f0Ll 1f1Lu 1f2Lt 1f3Ll 1f4Lu 1f5Ll 1f6-1f8Lu 1f9Ll 1faLu 1fbLl 1fcLu 1fdLl 1feLu 1ffLl",
   "200Lu 201Ll 202Lu 203Ll 204Lu 205Ll 206Lu 207Ll 208Lu 209Ll 20aLu 20bLl 20cLu 20dLl 20eLu",
   "20fLl 210Lu 211Ll 212Lu 213Ll 214Lu 215Ll 216Lu 217Ll 218Lu 219Ll 21aLu 21bLl 21cLu 21dLl",
   "21eLu 21fLl 220Lu 221Ll 222Lu 223Ll 224Lu 225Ll 226Lu 227Ll 228Lu 229Ll 22aLu 22bLl 22cLu",
   "22dLl 22eLu 22fLl 230Lu 231Ll 232Lu 233-239Ll 23a-23bLu 23cLl 23d-23eLu 23f-240Ll 241Lu",
   "242Ll 243-246Lu 247Ll 248Lu 249Ll 24aLu 24bLl 24cLu 24dLl 24eLu 24f-293Ll 294-295Lo",
   "296-2afLl 2b0-2c1Lm 2c2-2c5Sk 2c6-2d1Lm 2d2-2dfSk 2e0-2e4Lm 2e5-2ebSk 2ecLm 2edSk 2eeLm",
   "2ef-2ffSk 300-36fMn 370Lu 371Ll 372Lu 373Ll 374Lm 375Sk 376Lu 377Ll 37aLm 37b-37dLl 37ePo",
   "37fLu 384-385Sk 386Lu 387Po 388-38aLu 38cLu 38e-38fLu 390Ll 391-3a1Lu 3a3-3abLu 3ac-3ceLl",
   "3cfLu 3d0-3d1Ll 3d2-3d4Lu 3d5-3d7Ll 3d8Lu 3d9Ll 3daLu 3dbLl 3dcLu 3ddLl 3deLu 3dfLl 3e0Lu",
   "3e1Ll 3e2Lu 3e3Ll 3e4Lu 3e5Ll 3e6Lu 3e7Ll 3e8Lu 3e9Ll 3eaLu 3ebLl 3ecLu 3edLl 3eeLu",
   "3ef-3f3Ll 3f4Lu 3f5Ll 3f6Sm 3f7Lu 3f8Ll 3f9-3faLu 3fb-3fcLl 3fd-42fLu 430-45fLl 460Lu 461Ll",
   "462Lu 463Ll 464Lu 465Ll 466Lu 467Ll 468Lu 469Ll 46aLu 46bLl 46cLu 46dLl 46eLu 46fLl 470Lu",
   "471Ll 472Lu 473Ll 474Lu 475Ll 476Lu 477Ll 478Lu 479Ll 47aLu 47bLl 47cLu 47dLl 47eLu 47fLl",
   "480Lu 481Ll 482So 483-487Mn 488-489Me 48aLu 48bLl 48cLu 48dLl 48eLu 48fLl 490Lu 491Ll 492Lu",
   "493Ll 494Lu 495Ll 496Lu 497Ll 498Lu 499Ll 49aLu 49bLl 49cLu 49dLl 49eLu 49fLl 4a0Lu 4a1Ll",
   "4a2Lu 4a3Ll 4a4Lu 4a5Ll 4a6Lu 4a7Ll 4a8Lu 4a9Ll 4aaLu 4abLl 4acLu 4adLl 4aeLu 4afLl 4b0Lu",
   "4b1Ll 4b2Lu 4b3Ll 4b4Lu 4b5Ll 4b6Lu 4b7Ll 4b8Lu 4b9Ll 4baLu 4bbLl 4bcLu 4bdLl 4beLu 4bfLl",
   "4c0-4c1Lu 4c2Ll 4c3Lu 4c4Ll 4c5Lu 4c6Ll 4c7Lu 4c8Ll 4c9Lu 4caLl 4cbLu 4ccLl 4cdLu 4ce-4cfLl",
   "4d0Lu 4d1Ll 4d2Lu 4d3Ll 4d4Lu 4d5Ll 4d6Lu 4d7Ll 4d8Lu 4d9Ll 4daLu 4dbLl 4dcLu 4ddLl 4deLu",
   "4dfLl 4e0Lu 4e1Ll 4e2Lu 4e3Ll 4e4Lu 4e5Ll 4e6Lu 4e7Ll 4e8Lu 4e9Ll 4eaLu 4ebLl 4ecLu 4edLl",
   "4eeLu 4efLl 4f0Lu 4f1Ll 4f2Lu 4f3Ll 4f4Lu 4f5Ll 4f6Lu 4f7Ll 4f8Lu 4f9Ll 4faLu 4fbLl 4fcLu",
   "4fdLl 4feLu 4ffLl 500Lu 501Ll 502Lu 503Ll 504Lu 505Ll 506Lu 507Ll 508Lu 509Ll 50aLu 50bLl",
   "50cLu 50dLl 50eLu 50fLl 510Lu 511Ll 512Lu 513Ll 514Lu 515Ll 516Lu 517Ll 518Lu 519Ll 51aLu",
   "51bLl 51cLu 51dLl 51eLu 51fLl 520Lu 521Ll 522Lu 523Ll 524Lu 525Ll 526Lu 527Ll 528Lu 529Ll",
   "52aLu 52bLl 52cLu 52dLl 52eLu 52fLl 531-556Lu 559Lm 55a-55fPo 560-588Ll 589Po 58aPd",
   "58d-58eSo 58fSc 591-5bdMn 5bePd 5bfMn 5c0Po 5c1-5c2Mn 5c3Po 5c4-5c5Mn 5c6Po 5c7Mn 5d0-5eaLo",
   "5ef-5f2Lo 5f3-5f4Po 600-605Cf 606-608Sm 609-60aPo 60bSc 60c-60dPo 60e-60fSo 610-61aMn 61bPo",
   "61cCf 61d-61fPo 620-63fLo 640Lm 641-64aLo 64b-65fMn 660-669Nd 66a-66dPo 66e-66fLo 670Mn",
   "671-6d3Lo 6d4Po 6d5Lo 6d6-6dcMn 6ddCf 6deSo 6df-6e4Mn 6e5-6e6Lm 6e7-6e8Mn 6e9So 6ea-6edMn",
   "6ee-6efLo 6f0-6f9Nd 6fa-6fcLo 6fd-6feSo 6ffLo 700-70dPo 70fCf 710Lo 711Mn 712-72fLo",
   "730-74aMn 74d-7a5Lo 7a6-7b0Mn 7b1Lo 7c0-7c9Nd 7ca-7eaLo 7eb-7f3Mn 7f4-7f5Lm 7f6So 7f7-7f9Po",
   "7faLm 7fdMn 7fe-7ffSc 800-815Lo 816-819Mn 81aLm 81b-823Mn 824Lm 825-827Mn 828Lm 829-82dMn",
   "830-83ePo 840-858Lo 859-85bMn 85ePo 860-86aLo 870-887Lo 888Sk 889-88fLo 890-891Cf 897-89fMn",
   "8a0-8c8Lo 8c9Lm 8ca-8e1Mn 8e2Cf 8e3-902Mn 903Mc 904-939Lo 93aMn 93bMc 93cMn 93dLo 93e-940Mc",
   "941-948Mn 949-94cMc 94dMn 94e-94fMc 950Lo 951-957Mn 958-961Lo 962-963Mn 964-965Po 966-96fNd",
   "970Po 971Lm 972-980Lo 981Mn 982-983Mc 985-98cLo 98f-990Lo 993-9a8Lo 9aa-9b0Lo 9b2Lo",
   "9b6-9b9Lo 9bcMn 9bdLo 9be-9c0Mc 9c1-9c4Mn 9c7-9c8Mc 9cb-9ccMc 9cdMn 9ceLo 9d7Mc 9dc-9ddLo",
   "9df-9e1Lo 9e2-9e3Mn 9e6-9efNd 9f0-9f1Lo 9f2-9f3Sc 9f4-9f9No 9faSo 9fbSc 9fcLo 9fdPo 9feMn",
   "a01-a02Mn a03Mc a05-a0aLo a0f-a10Lo a13-a28Lo a2a-a30Lo a32-a33Lo a35-a36Lo a38-a39Lo a3cMn",
   "a3e-a40Mc a41-a42Mn a47-a48Mn a4b-a4dMn a51Mn a59-a5cLo a5eLo a66-a6fNd a70-a71Mn a72-a74Lo",
   "a75Mn a76Po a81-a82Mn a83Mc a85-a8dLo a8f-a91Lo a93-aa8Lo aaa-ab0Lo ab2-ab3Lo ab5-ab9Lo",
   "abcMn abdLo abe-ac0Mc ac1-ac5Mn ac7-ac8Mn ac9Mc acb-accMc acdMn ad0Lo ae0-ae1Lo ae2-ae3Mn",
   "ae6-aefNd af0Po af1Sc af9Lo afa-affMn b01Mn b02-b03Mc b05-b0cLo b0f-b10Lo b13-b28Lo",
   "b2a-b30Lo b32-b33Lo b35-b39Lo b3cMn b3dLo b3eMc b3fMn b40Mc b41-b44Mn b47-b48Mc b4b-b4cMc",
   "b4dMn b55-b56Mn b57Mc b5c-b5dLo b5f-b61Lo b62-b63Mn b66-b6fNd b70So b71Lo b72-b77No b82Mn",
   "b83Lo b85-b8aLo b8e-b90Lo b92-b95Lo b99-b9aLo b9cLo b9e-b9fLo ba3-ba4Lo ba8-baaLo bae-bb9Lo",
   "bbe-bbfMc bc0Mn bc1-bc2Mc bc6-bc8Mc bca-bccMc bcdMn bd0Lo bd7Mc be6-befNd bf0-bf2No",
   "bf3-bf8So bf9Sc bfaSo c00Mn c01-c03Mc c04Mn c05-c0cLo c0e-c10Lo c12-c28Lo c2a-c39Lo c3cMn",
   "c3dLo c3e-c40Mn c41-c44Mc c46-c48Mn c4a-c4dMn c55-c56Mn c58-c5aLo c5c-c5dLo c60-c61Lo",
   "c62-c63Mn c66-c6fNd c77Po c78-c7eNo c7fSo c80Lo c81Mn c82-c83Mc c84Po c85-c8cLo c8e-c90Lo",
   "c92-ca8Lo caa-cb3Lo cb5-cb9Lo cbcMn cbdLo cbeMc cbfMn cc0-cc4Mc cc6Mn cc7-cc8Mc cca-ccbMc",
   "ccc-ccdMn cd5-cd6Mc cdc-cdeLo ce0-ce1Lo ce2-ce3Mn ce6-cefNd cf1-cf2Lo cf3Mc d00-d01Mn",
   "d02-d03Mc d04-d0cLo d0e-d10Lo d12-d3aLo d3b-d3cMn d3dLo d3e-d40Mc d41-d44Mn d46-d48Mc",
   "d4a-d4cMc d4dMn d4eLo d4fSo d54-d56Lo d57Mc d58-d5eNo d5f-d61Lo d62-d63Mn d66-d6fNd",
   "d70-d78No d79So d7a-d7fLo d81Mn d82-d83Mc d85-d96Lo d9a-db1Lo db3-dbbLo dbdLo dc0-dc6Lo",
   "dcaMn dcf-dd1Mc dd2-dd4Mn dd6Mn dd8-ddfMc de6-defNd df2-df3Mc df4Po e01-e30Lo e31Mn",
   "e32-e33Lo e34-e3aMn e3fSc e40-e45Lo e46Lm e47-e4eMn e4fPo e50-e59Nd e5a-e5bPo e81-e82Lo",
   "e84Lo e86-e8aLo e8c-ea3Lo ea5Lo ea7-eb0Lo eb1Mn eb2-eb3Lo eb4-ebcMn ebdLo ec0-ec4Lo ec6Lm",
   "ec8-eceMn ed0-ed9Nd edc-edfLo f00Lo f01-f03So f04-f12Po f13So f14Po f15-f17So f18-f19Mn",
   "f1a-f1fSo f20-f29Nd f2a-f33No f34So f35Mn f36So f37Mn f38So f39Mn f3aPs f3bPe f3cPs f3dPe",
   "f3e-f3fMc f40-f47Lo f49-f6cLo f71-f7eMn f7fMc f80-f84Mn f85Po f86-f87Mn f88-f8cLo f8d-f97Mn",
   "f99-fbcMn fbe-fc5So fc6Mn fc7-fccSo fce-fcfSo fd0-fd4Po fd5-fd8So fd9-fdaPo 1000-102aLo",
   "102b-102cMc 102d-1030Mn 1031Mc 1032-1037Mn 1038Mc 1039-103aMn 103b-103cMc 103d-103eMn 103fLo",
   "1040-1049Nd 104a-104fPo 1050-1055Lo 1056-1057Mc 1058-1059Mn 105a-105dLo 105e-1060Mn 1061Lo",
   "1062-1064Mc 1065-1066Lo 1067-106dMc 106e-1070Lo 1071-1074Mn 1075-1081Lo 1082Mn 1083-1084Mc",
   "1085-1086Mn 1087-108cMc 108dMn 108eLo 108fMc 1090-1099Nd 109a-109cMc 109dMn 109e-109fSo",
   "10a0-10c5Lu 10c7Lu 10cdLu 10d0-10faLl 10fbPo 10fcLm 10fd-10ffLl 1100-1248Lo 124a-124dLo",
   "1250-1256Lo 1258Lo 125a-125dLo 1260-1288Lo 128a-128dLo 1290-12b0Lo 12b2-12b5Lo 12b8-12beLo",
   "12c0Lo 12c2-12c5Lo 12c8-12d6Lo 12d8-1310Lo 1312-1315Lo 1318-135aLo 135d-135fMn 1360-1368Po",
   "1369-137cNo 1380-138fLo 1390-1399So 13a0-13f5Lu 13f8-13fdLl 1400Pd 1401-166cLo 166dSo 166ePo",
   "166f-167fLo 1680Zs 1681-169aLo 169bPs 169cPe 16a0-16eaLo 16eb-16edPo 16ee-16f0Nl 16f1-16f8Lo",
   "1700-1711Lo 1712-1714Mn 1715Mc 171f-1731Lo 1732-1733Mn 1734Mc 1735-1736Po 1740-1751Lo",
   "1752-1753Mn 1760-176cLo 176e-1770Lo 1772-1773Mn 1780-17b3Lo 17b4-17b5Mn 17b6Mc 17b7-17bdMn",
   "17be-17c5Mc 17c6Mn 17c7-17c8Mc 17c9-17d3Mn 17d4-17d6Po 17d7Lm 17d8-17daPo 17dbSc 17dcLo",
   "17ddMn 17e0-17e9Nd 17f0-17f9No 1800-1805Po 1806Pd 1807-180aPo 180b-180dMn 180eCf 180fMn",
   "1810-1819Nd 1820-1842Lo 1843Lm 1844-1878Lo 1880-1884Lo 1885-1886Mn 1887-18a8Lo 18a9Mn 18aaLo",
   "18b0-18f5Lo 1900-191eLo 1920-1922Mn 1923-1926Mc 1927-1928Mn 1929-192bMc 1930-1931Mc 1932Mn",
   "1933-1938Mc 1939-193bMn 1940So 1944-1945Po 1946-194fNd 1950-196dLo 1970-1974Lo 1980-19abLo",
   "19b0-19c9Lo 19d0-19d9Nd 19daNo 19de-19ffSo 1a00-1a16Lo 1a17-1a18Mn 1a19-1a1aMc 1a1bMn",
   "1a1e-1a1fPo 1a20-1a54Lo 1a55Mc 1a56Mn 1a57Mc 1a58-1a5eMn 1a60Mn 1a61Mc 1a62Mn 1a63-1a64Mc",
   "1a65-1a6cMn 1a6d-1a72Mc 1a73-1a7cMn 1a7fMn 1a80-1a89Nd 1a90-1a99Nd 1aa0-1aa6Po 1aa7Lm",
   "1aa8-1aadPo 1ab0-1abdMn 1abeMe 1abf-1addMn 1ae0-1aebMn 1b00-1b03Mn 1b04Mc 1b05-1b33Lo 1b34Mn",
   "1b35Mc 1b36-1b3aMn 1b3bMc 1b3cMn 1b3d-1b41Mc 1b42Mn 1b43-1b44Mc 1b45-1b4cLo 1b4e-1b4fPo",
   "1b50-1b59Nd 1b5a-1b60Po 1b61-1b6aSo 1b6b-1b73Mn 1b74-1b7cSo 1b7d-1b7fPo 1b80-1b81Mn 1b82Mc",
   "1b83-1ba0Lo 1ba1Mc 1ba2-1ba5Mn 1ba6-1ba7Mc 1ba8-1ba9Mn 1baaMc 1bab-1badMn 1bae-1bafLo",
   "1bb0-1bb9Nd 1bba-1be5Lo 1be6Mn 1be7Mc 1be8-1be9Mn 1bea-1becMc 1bedMn 1beeMc 1bef-1bf1Mn",
   "1bf2-1bf3Mc 1bfc-1bffPo 1c00-1c23Lo 1c24-1c2bMc 1c2c-1c33Mn 1c34-1c35Mc 1c36-1c37Mn",
   "1c3b-1c3fPo 1c40-1c49Nd 1c4d-1c4fLo 1c50-1c59Nd 1c5a-1c77Lo 1c78-1c7dLm 1c7e-1c7fPo",
   "1c80-1c88Ll 1c89Lu 1c8aLl 1c90-1cbaLu 1cbd-1cbfLu 1cc0-1cc7Po 1cd0-1cd2Mn 1cd3Po 1cd4-1ce0Mn",
   "1ce1Mc 1ce2-1ce8Mn 1ce9-1cecLo 1cedMn 1cee-1cf3Lo 1cf4Mn 1cf5-1cf6Lo 1cf7Mc 1cf8-1cf9Mn",
   "1cfaLo 1d00-1d2bLl 1d2c-1d6aLm 1d6b-1d77Ll 1d78Lm 1d79-1d9aLl 1d9b-1dbfLm 1dc0-1dffMn 1e00Lu",
   "1e01Ll 1e02Lu 1e03Ll 1e04Lu 1e05Ll 1e06Lu 1e07Ll 1e08Lu 1e09Ll 1e0aLu 1e0bLl 1e0cLu 1e0dLl",
   "1e0eLu 1e0fLl 1e10Lu 1e11Ll 1e12Lu 1e13Ll 1e14Lu 1e15Ll 1e16Lu 1e17Ll 1e18Lu 1e19Ll 1e1aLu",
   "1e1bLl 1e1cLu 1e1dLl 1e1eLu 1e1fLl 1e20Lu 1e21Ll 1e22Lu 1e23Ll 1e24Lu 1e25Ll 1e26Lu 1e27Ll",
   "1e28Lu 1e29Ll 1e2aLu 1e2bLl 1e2cLu 1e2dLl 1e2eLu 1e2fLl 1e30Lu 1e31Ll 1e32Lu 1e33Ll 1e34Lu",
   "1e35Ll 1e36Lu 1e37Ll 1e38Lu 1e39Ll 1e3aLu 1e3bLl 1e3cLu 1e3dLl 1e3eLu 1e3fLl 1e40Lu 1e41Ll",
   "1e42Lu 1e43Ll 1e44Lu 1e45Ll 1e46Lu 1e47Ll 1e48Lu 1e49Ll 1e4aLu 1e4bLl 1e4cLu 1e4dLl 1e4eLu",
   "1e4fLl 1e50Lu 1e51Ll 1e52Lu 1e53Ll 1e54Lu 1e55Ll 1e56Lu 1e57Ll 1e58Lu 1e59Ll 1e5aLu 1e5bLl",
   "1e5cLu 1e5dLl 1e5eLu 1e5fLl 1e60Lu 1e61Ll 1e62Lu 1e63Ll 1e64Lu 1e65Ll 1e66Lu 1e67Ll 1e68Lu",
   "1e69Ll 1e6aLu 1e6bLl 1e6cLu 1e6dLl 1e6eLu 1e6fLl 1e70Lu 1e71Ll 1e72Lu 1e73Ll 1e74Lu 1e75Ll",
   "1e76Lu 1e77Ll 1e78Lu 1e79Ll 1e7aLu 1e7bLl 1e7cLu 1e7dLl 1e7eLu 1e7fLl 1e80Lu 1e81Ll 1e82Lu",
   "1e83Ll 1e84Lu 1e85Ll 1e86Lu 1e87Ll 1e88Lu 1e89Ll 1e8aLu 1e8bLl 1e8cLu 1e8dLl 1e8eLu 1e8fLl",
   "1e90Lu 1e91Ll 1e92Lu 1e93Ll 1e94Lu 1e95-1e9dLl 1e9eLu 1e9fLl 1ea0Lu 1ea1Ll 1ea2Lu 1ea3Ll",
   "1ea4Lu 1ea5Ll 1ea6Lu 1ea7Ll 1ea8Lu 1ea9Ll 1eaaLu 1eabLl 1eacLu 1eadLl 1eaeLu 1eafLl 1eb0Lu",
   "1eb1Ll 1eb2Lu 1eb3Ll 1eb4Lu 1eb5Ll 1eb6Lu 1eb7Ll 1eb8Lu 1eb9Ll 1ebaLu 1ebbLl 1ebcLu 1ebdLl",
   "1ebeLu 1ebfLl 1ec0Lu 1ec1Ll 1ec2Lu 1ec3Ll 1ec4Lu 1ec5Ll 1ec6Lu 1ec7Ll 1ec8Lu 1ec9Ll 1ecaLu",
   "1ecbLl 1eccLu 1ecdLl 1eceLu 1ecfLl 1ed0Lu 1ed1Ll 1ed2Lu 1ed3Ll 1ed4Lu 1ed5Ll 1ed6Lu 1ed7Ll",
   "1ed8Lu 1ed9Ll 1edaLu 1edbLl 1edcLu 1eddLl 1edeLu 1edfLl 1ee0Lu 1ee1Ll 1ee2Lu 1ee3Ll 1ee4Lu",
   "1ee5Ll 1ee6Lu 1ee7Ll 1ee8Lu 1ee9Ll 1eeaLu 1eebLl 1eecLu 1eedLl 1eeeLu 1eefLl 1ef0Lu 1ef1Ll",
   "1ef2Lu 1ef3Ll 1ef4Lu 1ef5Ll 1ef6Lu 1ef7Ll 1ef8Lu 1ef9Ll 1efaLu 1efbLl 1efcLu 1efdLl 1efeLu",
   "1eff-1f07Ll 1f08-1f0fLu 1f10-1f15Ll 1f18-1f1dLu 1f20-1f27Ll 1f28-1f2fLu 1f30-1f37Ll",
   "1f38-1f3fLu 1f40-1f45Ll 1f48-1f4dLu 1f50-1f57Ll 1f59Lu 1f5bLu 1f5dLu 1f5fLu 1f60-1f67Ll",
   "1f68-1f6fLu 1f70-1f7dLl 1f80-1f87Ll 1f88-1f8fLt 1f90-1f97Ll 1f98-1f9fLt 1fa0-1fa7Ll",
   "1fa8-1fafLt 1fb0-1fb4Ll 1fb6-1fb7Ll 1fb8-1fbbLu 1fbcLt 1fbdSk 1fbeLl 1fbf-1fc1Sk 1fc2-1fc4Ll",
   "1fc6-1fc7Ll 1fc8-1fcbLu 1fccLt 1fcd-1fcfSk 1fd0-1fd3Ll 1fd6-1fd7Ll 1fd8-1fdbLu 1fdd-1fdfSk",
   "1fe0-1fe7Ll 1fe8-1fecLu 1fed-1fefSk 1ff2-1ff4Ll 1ff6-1ff7Ll 1ff8-1ffbLu 1ffcLt 1ffd-1ffeSk",
   "2000-200aZs 200b-200fCf 2010-2015Pd 2016-2017Po 2018Pi 2019Pf 201aPs 201b-201cPi 201dPf",
   "201ePs 201fPi 2020-2027Po 2028Zl 2029Zp 202a-202eCf 202fZs 2030-2038Po 2039Pi 203aPf",
   "203b-203ePo 203f-2040Pc 2041-2043Po 2044Sm 2045Ps 2046Pe 2047-2051Po 2052Sm 2053Po 2054Pc",
   "2055-205ePo 205fZs 2060-2064Cf 2066-206fCf 2070No 2071Lm 2074-2079No 207a-207cSm 207dPs",
   "207ePe 207fLm 2080-2089No 208a-208cSm 208dPs 208ePe 2090-209cLm 20a0-20c1Sc 20d0-20dcMn",
   "20dd-20e0Me 20e1Mn 20e2-20e4Me 20e5-20f0Mn 2100-2101So 2102Lu 2103-2106So 2107Lu 2108-2109So",
   "210aLl 210b-210dLu 210e-210fLl 2110-2112Lu 2113Ll 2114So 2115Lu 2116-2117So 2118Sm",
   "2119-211dLu 211e-2123So 2124Lu 2125So 2126Lu 2127So 2128Lu 2129So 212a-212dLu 212eSo 212fLl",
   "2130-2133Lu 2134Ll 2135-2138Lo 2139Ll 213a-213bSo 213c-213dLl 213e-213fLu 2140-2144Sm 2145Lu",
   "2146-2149Ll 214aSo 214bSm 214c-214dSo 214eLl 214fSo 2150-215fNo 2160-2182Nl 2183Lu 2184Ll",
   "2185-2188Nl 2189No 218a-218bSo 2190-2194Sm 2195-2199So 219a-219bSm 219c-219fSo 21a0Sm",
   "21a1-21a2So 21a3Sm 21a4-21a5So 21a6Sm 21a7-21adSo 21aeSm 21af-21cdSo 21ce-21cfSm 21d0-21d1So",
   "21d2Sm 21d3So 21d4Sm 21d5-21f3So 21f4-22ffSm 2300-2307So 2308Ps 2309Pe 230aPs 230bPe",
   "230c-231fSo 2320-2321Sm 2322-2328So 2329Ps 232aPe 232b-237bSo 237cSm 237d-239aSo 239b-23b3Sm",
   "23b4-23dbSo 23dc-23e1Sm 23e2-2429So 2440-244aSo 2460-249bNo 249c-24e9So 24ea-24ffNo",
   "2500-25b6So 25b7Sm 25b8-25c0So 25c1Sm 25c2-25f7So 25f8-25ffSm 2600-266eSo 266fSm 2670-2767So",
   "2768Ps 2769Pe 276aPs 276bPe 276cPs 276dPe 276ePs 276fPe 2770Ps 2771Pe 2772Ps 2773Pe 2774Ps",
   "2775Pe 2776-2793No 2794-27bfSo 27c0-27c4Sm 27c5Ps 27c6Pe 27c7-27e5Sm 27e6Ps 27e7Pe 27e8Ps",
   "27e9Pe 27eaPs 27ebPe 27ecPs 27edPe 27eePs 27efPe 27f0-27ffSm 2800-28ffSo 2900-2982Sm 2983Ps",
   "2984Pe 2985Ps 2986Pe 2987Ps 2988Pe 2989Ps 298aPe 298bPs 298cPe 298dPs 298ePe 298fPs 2990Pe",
   "2991Ps 2992Pe 2993Ps 2994Pe 2995Ps 2996Pe 2997Ps 2998Pe 2999-29d7Sm 29d8Ps 29d9Pe 29daPs",
   "29dbPe 29dc-29fbSm 29fcPs 29fdPe 29fe-2affSm 2b00-2b2fSo 2b30-2b44Sm 2b45-2b46So 2b47-2b4cSm",
   "2b4d-2b73So 2b76-2bffSo 2c00-2c2fLu 2c30-2c5fLl 2c60Lu 2c61Ll 2c62-2c64Lu 2c65-2c66Ll 2c67Lu",
   "2c68Ll 2c69Lu 2c6aLl 2c6bLu 2c6cLl 2c6d-2c70Lu 2c71Ll 2c72Lu 2c73-2c74Ll 2c75Lu 2c76-2c7bLl",
   "2c7c-2c7dLm 2c7e-2c80Lu 2c81Ll 2c82Lu 2c83Ll 2c84Lu 2c85Ll 2c86Lu 2c87Ll 2c88Lu 2c89Ll",
   "2c8aLu 2c8bLl 2c8cLu 2c8dLl 2c8eLu 2c8fLl 2c90Lu 2c91Ll 2c92Lu 2c93Ll 2c94Lu 2c95Ll 2c96Lu",
   "2c97Ll 2c98Lu 2c99Ll 2c9aLu 2c9bLl 2c9cLu 2c9dLl 2c9eLu 2c9fLl 2ca0Lu 2ca1Ll 2ca2Lu 2ca3Ll",
   "2ca4Lu 2ca5Ll 2ca6Lu 2ca7Ll 2ca8Lu 2ca9Ll 2caaLu 2cabLl 2cacLu 2cadLl 2caeLu 2cafLl 2cb0Lu",
   "2cb1Ll 2cb2Lu 2cb3Ll 2cb4Lu 2cb5Ll 2cb6Lu 2cb7Ll 2cb8Lu 2cb9Ll 2cbaLu 2cbbLl 2cbcLu 2cbdLl",
   "2cbeLu 2cbfLl 2cc0Lu 2cc1Ll 2cc2Lu 2cc3Ll 2cc4Lu 2cc5Ll 2cc6Lu 2cc7Ll 2cc8Lu 2cc9Ll 2ccaLu",
   "2ccbLl 2cccLu 2ccdLl 2cceLu 2ccfLl 2cd0Lu 2cd1Ll 2cd2Lu 2cd3Ll 2cd4Lu 2cd5Ll 2cd6Lu 2cd7Ll",
   "2cd8Lu 2cd9Ll 2cdaLu 2cdbLl 2cdcLu 2cddLl 2cdeLu 2cdfLl 2ce0Lu 2ce1Ll 2ce2Lu 2ce3-2ce4Ll",
   "2ce5-2ceaSo 2cebLu 2cecLl 2cedLu 2ceeLl 2cef-2cf1Mn 2cf2Lu 2cf3Ll 2cf9-2cfcPo 2cfdNo",
   "2cfe-2cffPo 2d00-2d25Ll 2d27Ll 2d2dLl 2d30-2d67Lo 2d6fLm 2d70Po 2d7fMn 2d80-2d96Lo",
   "2da0-2da6Lo 2da8-2daeLo 2db0-2db6Lo 2db8-2dbeLo 2dc0-2dc6Lo 2dc8-2dceLo 2dd0-2dd6Lo",
   "2dd8-2ddeLo 2de0-2dffMn 2e00-2e01Po 2e02Pi 2e03Pf 2e04Pi 2e05Pf 2e06-2e08Po 2e09Pi 2e0aPf",
   "2e0bPo 2e0cPi 2e0dPf 2e0e-2e16Po 2e17Pd 2e18-2e19Po 2e1aPd 2e1bPo 2e1cPi 2e1dPf 2e1e-2e1fPo",
   "2e20Pi 2e21Pf 2e22Ps 2e23Pe 2e24Ps 2e25Pe 2e26Ps 2e27Pe 2e28Ps 2e29Pe 2e2a-2e2ePo 2e2fLm",
   "2e30-2e39Po 2e3a-2e3bPd 2e3c-2e3fPo 2e40Pd 2e41Po 2e42Ps 2e43-2e4fPo 2e50-2e51So 2e52-2e54Po",
   "2e55Ps 2e56Pe 2e57Ps 2e58Pe 2e59Ps 2e5aPe 2e5bPs 2e5cPe 2e5dPd 2e80-2e99So 2e9b-2ef3So",
   "2f00-2fd5So 2ff0-2fffSo 3000Zs 3001-3003Po 3004So 3005Lm 3006Lo 3007Nl 3008Ps 3009Pe 300aPs",
   "300bPe 300cPs 300dPe 300ePs 300fPe 3010Ps 3011Pe 3012-3013So 3014Ps 3015Pe 3016Ps 3017Pe",
   "3018Ps 3019Pe 301aPs 301bPe 301cPd 301dPs 301e-301fPe 3020So 3021-3029Nl 302a-302dMn",
   "302e-302fMc 3030Pd 3031-3035Lm 3036-3037So 3038-303aNl 303bLm 303cLo 303dPo 303e-303fSo",
   "3041-3096Lo 3099-309aMn 309b-309cSk 309d-309eLm 309fLo 30a0Pd 30a1-30faLo 30fbPo 30fc-30feLm",
   "30ffLo 3105-312fLo 3131-318eLo 3190-3191So 3192-3195No 3196-319fSo 31a0-31bfLo 31c0-31e5So",
   "31efSo 31f0-31ffLo 3200-321eSo 3220-3229No 322a-3247So 3248-324fNo 3250So 3251-325fNo",
   "3260-327fSo 3280-3289No 328a-32b0So 32b1-32bfNo 32c0-33ffSo 3400-4dbfLo 4dc0-4dffSo",
   "4e00-a014Lo a015Lm a016-a48cLo a490-a4c6So a4d0-a4f7Lo a4f8-a4fdLm a4fe-a4ffPo a500-a60bLo",
   "a60cLm a60d-a60fPo a610-a61fLo a620-a629Nd a62a-a62bLo a640Lu a641Ll a642Lu a643Ll a644Lu",
   "a645Ll a646Lu a647Ll a648Lu a649Ll a64aLu a64bLl a64cLu a64dLl a64eLu a64fLl a650Lu a651Ll",
   "a652Lu a653Ll a654Lu a655Ll a656Lu a657Ll a658Lu a659Ll a65aLu a65bLl a65cLu a65dLl a65eLu",
   "a65fLl a660Lu a661Ll a662Lu a663Ll a664Lu a665Ll a666Lu a667Ll a668Lu a669Ll a66aLu a66bLl",
   "a66cLu a66dLl a66eLo a66fMn a670-a672Me a673Po a674-a67dMn a67ePo a67fLm a680Lu a681Ll",
   "a682Lu a683Ll a684Lu a685Ll a686Lu a687Ll a688Lu a689Ll a68aLu a68bLl a68cLu a68dLl a68eLu",
   "a68fLl a690Lu a691Ll a692Lu a693Ll a694Lu a695Ll a696Lu a697Ll a698Lu a699Ll a69aLu a69bLl",
   "a69c-a69dLm a69e-a69fMn a6a0-a6e5Lo a6e6-a6efNl a6f0-a6f1Mn a6f2-a6f7Po a700-a716Sk",
   "a717-a71fLm a720-a721Sk a722Lu a723Ll a724Lu a725Ll a726Lu a727Ll a728Lu a729Ll a72aLu",
   "a72bLl a72cLu a72dLl a72eLu a72f-a731Ll a732Lu a733Ll a734Lu a735Ll a736Lu a737Ll a738Lu",
   "a739Ll a73aLu a73bLl a73cLu a73dLl a73eLu a73fLl a740Lu a741Ll a742Lu a743Ll a744Lu a745Ll",
   "a746Lu a747Ll a748Lu a749Ll a74aLu a74bLl a74cLu a74dLl a74eLu a74fLl a750Lu a751Ll a752Lu",
   "a753Ll a754Lu a755Ll a756Lu a757Ll a758Lu a759Ll a75aLu a75bLl a75cLu a75dLl a75eLu a75fLl",
   "a760Lu a761Ll a762Lu a763Ll a764Lu a765Ll a766Lu a767Ll a768Lu a769Ll a76aLu a76bLl a76cLu",
   "a76dLl a76eLu a76fLl a770Lm a771-a778Ll a779Lu a77aLl a77bLu a77cLl a77d-a77eLu a77fLl",
   "a780Lu a781Ll a782Lu a783Ll a784Lu a785Ll a786Lu a787Ll a788Lm a789-a78aSk a78bLu a78cLl",
   "a78dLu a78eLl a78fLo a790Lu a791Ll a792Lu a793-a795Ll a796Lu a797Ll a798Lu a799Ll a79aLu",
   "a79bLl a79cLu a79dLl a79eLu a79fLl a7a0Lu a7a1Ll a7a2Lu a7a3Ll a7a4Lu a7a5Ll a7a6Lu a7a7Ll",
   "a7a8Lu a7a9Ll a7aa-a7aeLu a7afLl a7b0-a7b4Lu a7b5Ll a7b6Lu a7b7Ll a7b8Lu a7b9Ll a7baLu",
   "a7bbLl a7bcLu a7bdLl a7beLu a7bfLl a7c0Lu a7c1Ll a7c2Lu a7c3Ll a7c4-a7c7Lu a7c8Ll a7c9Lu",
   "a7caLl a7cb-a7ccLu a7cdLl a7ceLu a7cfLl a7d0Lu a7d1Ll a7d2Lu a7d3Ll a7d4Lu a7d5Ll a7d6Lu",
   "a7d7Ll a7d8Lu a7d9Ll a7daLu a7dbLl a7dcLu a7f1-a7f4Lm a7f5Lu a7f6Ll a7f7Lo a7f8-a7f9Lm",
   "a7faLl a7fb-a801Lo a802Mn a803-a805Lo a806Mn a807-a80aLo a80bMn a80c-a822Lo a823-a824Mc",
   "a825-a826Mn a827Mc a828-a82bSo a82cMn a830-a835No a836-a837So a838Sc a839So a840-a873Lo",
   "a874-a877Po a880-a881Mc a882-a8b3Lo a8b4-a8c3Mc a8c4-a8c5Mn a8ce-a8cfPo a8d0-a8d9Nd",
   "a8e0-a8f1Mn a8f2-a8f7Lo a8f8-a8faPo a8fbLo a8fcPo a8fd-a8feLo a8ffMn a900-a909Nd a90a-a925Lo",
   "a926-a92dMn a92e-a92fPo a930-a946Lo a947-a951Mn a952-a953Mc a95fPo a960-a97cLo a980-a982Mn",
   "a983Mc a984-a9b2Lo a9b3Mn a9b4-a9b5Mc a9b6-a9b9Mn a9ba-a9bbMc a9bc-a9bdMn a9be-a9c0Mc",
   "a9c1-a9cdPo a9cfLm a9d0-a9d9Nd a9de-a9dfPo a9e0-a9e4Lo a9e5Mn a9e6Lm a9e7-a9efLo a9f0-a9f9Nd",
   "a9fa-a9feLo aa00-aa28Lo aa29-aa2eMn aa2f-aa30Mc aa31-aa32Mn aa33-aa34Mc aa35-aa36Mn",
   "aa40-aa42Lo aa43Mn aa44-aa4bLo aa4cMn aa4dMc aa50-aa59Nd aa5c-aa5fPo aa60-aa6fLo aa70Lm",
   "aa71-aa76Lo aa77-aa79So aa7aLo aa7bMc aa7cMn aa7dMc aa7e-aaafLo aab0Mn aab1Lo aab2-aab4Mn",
   "aab5-aab6Lo aab7-aab8Mn aab9-aabdLo aabe-aabfMn aac0Lo aac1Mn aac2Lo aadb-aadcLo aaddLm",
   "aade-aadfPo aae0-aaeaLo aaebMc aaec-aaedMn aaee-aaefMc aaf0-aaf1Po aaf2Lo aaf3-aaf4Lm aaf5Mc",
   "aaf6Mn ab01-ab06Lo ab09-ab0eLo ab11-ab16Lo ab20-ab26Lo ab28-ab2eLo ab30-ab5aLl ab5bSk",
   "ab5c-ab5fLm ab60-ab68Ll ab69Lm ab6a-ab6bSk ab70-abbfLl abc0-abe2Lo abe3-abe4Mc abe5Mn",
   "abe6-abe7Mc abe8Mn abe9-abeaMc abebPo abecMc abedMn abf0-abf9Nd ac00-d7a3Lo d7b0-d7c6Lo",
   "d7cb-d7fbLo e000-f8ffCo f900-fa6dLo fa70-fad9Lo fb00-fb06Ll fb13-fb17Ll fb1dLo fb1eMn",
   "fb1f-fb28Lo fb29Sm fb2a-fb36Lo fb38-fb3cLo fb3eLo fb40-fb41Lo fb43-fb44Lo fb46-fbb1Lo",
   "fbb2-fbc2Sk fbc3-fbd2So fbd3-fd3dLo fd3ePe fd3fPs fd40-fd4fSo fd50-fd8fLo fd90-fd91So",
   "fd92-fdc7Lo fdc8-fdcfSo fdf0-fdfbLo fdfcSc fdfd-fdffSo fe00-fe0fMn fe10-fe16Po fe17Ps fe18Pe",
   "fe19Po fe20-fe2fMn fe30Po fe31-fe32Pd fe33-fe34Pc fe35Ps fe36Pe fe37Ps fe38Pe fe39Ps fe3aPe",
   "fe3bPs fe3cPe fe3dPs fe3ePe fe3fPs fe40Pe fe41Ps fe42Pe fe43Ps fe44Pe fe45-fe46Po fe47Ps",
   "fe48Pe fe49-fe4cPo fe4d-fe4fPc fe50-fe52Po fe54-fe57Po fe58Pd fe59Ps fe5aPe fe5bPs fe5cPe",
   "fe5dPs fe5ePe fe5f-fe61Po fe62Sm fe63Pd fe64-fe66Sm fe68Po fe69Sc fe6a-fe6bPo fe70-fe74Lo",
   "fe76-fefcLo feffCf ff01-ff03Po ff04Sc ff05-ff07Po ff08Ps ff09Pe ff0aPo ff0bSm ff0cPo ff0dPd",
   "ff0e-ff0fPo ff10-ff19Nd ff1a-ff1bPo ff1c-ff1eSm ff1f-ff20Po ff21-ff3aLu ff3bPs ff3cPo ff3dPe",
   "ff3eSk ff3fPc ff40Sk ff41-ff5aLl ff5bPs ff5cSm ff5dPe ff5eSm ff5fPs ff60Pe ff61Po ff62Ps",
   "ff63Pe ff64-ff65Po ff66-ff6fLo ff70Lm ff71-ff9dLo ff9e-ff9fLm ffa0-ffbeLo ffc2-ffc7Lo",
   "ffca-ffcfLo ffd2-ffd7Lo ffda-ffdcLo ffe0-ffe1Sc ffe2Sm ffe3Sk ffe4So ffe5-ffe6Sc ffe8So",
   "ffe9-ffecSm ffed-ffeeSo fff9-fffbCf fffc-fffdSo 10000-1000bLo 1000d-10026Lo 10028-1003aLo",
   "1003c-1003dLo 1003f-1004dLo 10050-1005dLo 10080-100faLo 10100-10102Po 10107-10133No",
   "10137-1013fSo 10140-10174Nl 10175-10178No 10179-10189So 1018a-1018bNo 1018c-1018eSo",
   "10190-1019cSo 101a0So 101d0-101fcSo 101fdMn 10280-1029cLo 102a0-102d0Lo 102e0Mn",
   "102e1-102fbNo 10300-1031fLo 10320-10323No 1032d-10340Lo 10341Nl 10342-10349Lo 1034aNl",
   "10350-10375Lo 10376-1037aMn 10380-1039dLo 1039fPo 103a0-103c3Lo 103c8-103cfLo 103d0Po",
   "103d1-103d5Nl 10400-10427Lu 10428-1044fLl 10450-1049dLo 104a0-104a9Nd 104b0-104d3Lu",
   "104d8-104fbLl 10500-10527Lo 10530-10563Lo 1056fPo 10570-1057aLu 1057c-1058aLu 1058c-10592Lu",
   "10594-10595Lu 10597-105a1Ll 105a3-105b1Ll 105b3-105b9Ll 105bb-105bcLl 105c0-105f3Lo",
   "10600-10736Lo 10740-10755Lo 10760-10767Lo 10780-10785Lm 10787-107b0Lm 107b2-107baLm",
   "10800-10805Lo 10808Lo 1080a-10835Lo 10837-10838Lo 1083cLo 1083f-10855Lo 10857Po",
   "10858-1085fNo 10860-10876Lo 10877-10878So 10879-1087fNo 10880-1089eLo 108a7-108afNo",
   "108e0-108f2Lo 108f4-108f5Lo 108fb-108ffNo 10900-10915Lo 10916-1091bNo 1091fPo 10920-10939Lo",
   "1093fPo 10940-10959Lo 10980-109b7Lo 109bc-109bdNo 109be-109bfLo 109c0-109cfNo 109d2-109ffNo",
   "10a00Lo 10a01-10a03Mn 10a05-10a06Mn 10a0c-10a0fMn 10a10-10a13Lo 10a15-10a17Lo 10a19-10a35Lo",
   "10a38-10a3aMn 10a3fMn 10a40-10a48No 10a50-10a58Po 10a60-10a7cLo 10a7d-10a7eNo 10a7fPo",
   "10a80-10a9cLo 10a9d-10a9fNo 10ac0-10ac7Lo 10ac8So 10ac9-10ae4Lo 10ae5-10ae6Mn 10aeb-10aefNo",
   "10af0-10af6Po 10b00-10b35Lo 10b39-10b3fPo 10b40-10b55Lo 10b58-10b5fNo 10b60-10b72Lo",
   "10b78-10b7fNo 10b80-10b91Lo 10b99-10b9cPo 10ba9-10bafNo 10c00-10c48Lo 10c80-10cb2Lu",
   "10cc0-10cf2Ll 10cfa-10cffNo 10d00-10d23Lo 10d24-10d27Mn 10d30-10d39Nd 10d40-10d49Nd",
   "10d4a-10d4dLo 10d4eLm 10d4fLo 10d50-10d65Lu 10d69-10d6dMn 10d6ePd 10d6fLm 10d70-10d85Ll",
   "10d8e-10d8fSm 10e60-10e7eNo 10e80-10ea9Lo 10eab-10eacMn 10eadPd 10eb0-10eb1Lo 10ec2-10ec4Lo",
   "10ec5Lm 10ec6-10ec7Lo 10ed0Po 10ed1-10ed8So 10efa-10effMn 10f00-10f1cLo 10f1d-10f26No",
   "10f27Lo 10f30-10f45Lo 10f46-10f50Mn 10f51-10f54No 10f55-10f59Po 10f70-10f81Lo 10f82-10f85Mn",
   "10f86-10f89Po 10fb0-10fc4Lo 10fc5-10fcbNo 10fe0-10ff6Lo 11000Mc 11001Mn 11002Mc",
   "11003-11037Lo 11038-11046Mn 11047-1104dPo 11052-11065No 11066-1106fNd 11070Mn 11071-11072Lo",
   "11073-11074Mn 11075Lo 1107f-11081Mn 11082Mc 11083-110afLo 110b0-110b2Mc 110b3-110b6Mn",
   "110b7-110b8Mc 110b9-110baMn 110bb-110bcPo 110bdCf 110be-110c1Po 110c2Mn 110cdCf",
   "110d0-110e8Lo 110f0-110f9Nd 11100-11102Mn 11103-11126Lo 11127-1112bMn 1112cMc 1112d-11134Mn",
   "11136-1113fNd 11140-11143Po 11144Lo 11145-11146Mc 11147Lo 11150-11172Lo 11173Mn",
   "11174-11175Po 11176Lo 11180-11181Mn 11182Mc 11183-111b2Lo 111b3-111b5Mc 111b6-111beMn",
   "111bf-111c0Mc 111c1-111c4Lo 111c5-111c8Po 111c9-111ccMn 111cdPo 111ceMc 111cfMn",
   "111d0-111d9Nd 111daLo 111dbPo 111dcLo 111dd-111dfPo 111e1-111f4No 11200-11211Lo",
   "11213-1122bLo 1122c-1122eMc 1122f-11231Mn 11232-11233Mc 11234Mn 11235Mc 11236-11237Mn",
   "11238-1123dPo 1123eMn 1123f-11240Lo 11241Mn 11280-11286Lo 11288Lo 1128a-1128dLo",
   "1128f-1129dLo 1129f-112a8Lo 112a9Po 112b0-112deLo 112dfMn 112e0-112e2Mc 112e3-112eaMn",
   "112f0-112f9Nd 11300-11301Mn 11302-11303Mc 11305-1130cLo 1130f-11310Lo 11313-11328Lo",
   "1132a-11330Lo 11332-11333Lo 11335-11339Lo 1133b-1133cMn 1133dLo 1133e-1133fMc 11340Mn",
   "11341-11344Mc 11347-11348Mc 1134b-1134dMc 11350Lo 11357Mc 1135d-11361Lo 11362-11363Mc",
   "11366-1136cMn 11370-11374Mn 11380-11389Lo 1138bLo 1138eLo 11390-113b5Lo 113b7Lo",
   "113b8-113baMc 113bb-113c0Mn 113c2Mc 113c5Mc 113c7-113caMc 113cc-113cdMc 113ceMn 113cfMc",
   "113d0Mn 113d1Lo 113d2Mn 113d3Lo 113d4-113d5Po 113d7-113d8Po 113e1-113e2Mn 11400-11434Lo",
   "11435-11437Mc 11438-1143fMn 11440-11441Mc 11442-11444Mn 11445Mc 11446Mn 11447-1144aLo",
   "1144b-1144fPo 11450-11459Nd 1145a-1145bPo 1145dPo 1145eMn 1145f-11461Lo 11480-114afLo",
   "114b0-114b2Mc 114b3-114b8Mn 114b9Mc 114baMn 114bb-114beMc 114bf-114c0Mn 114c1Mc",
   "114c2-114c3Mn 114c4-114c5Lo 114c6Po 114c7Lo 114d0-114d9Nd 11580-115aeLo 115af-115b1Mc",
   "115b2-115b5Mn 115b8-115bbMc 115bc-115bdMn 115beMc 115bf-115c0Mn 115c1-115d7Po 115d8-115dbLo",
   "115dc-115ddMn 11600-1162fLo 11630-11632Mc 11633-1163aMn 1163b-1163cMc 1163dMn 1163eMc",
   "1163f-11640Mn 11641-11643Po 11644Lo 11650-11659Nd 11660-1166cPo 11680-116aaLo 116abMn",
   "116acMc 116adMn 116ae-116afMc 116b0-116b5Mn 116b6Mc 116b7Mn 116b8Lo 116b9Po 116c0-116c9Nd",
   "116d0-116e3Nd 11700-1171aLo 1171dMn 1171eMc 1171fMn 11720-11721Mc 11722-11725Mn 11726Mc",
   "11727-1172bMn 11730-11739Nd 1173a-1173bNo 1173c-1173ePo 1173fSo 11740-11746Lo 11800-1182bLo",
   "1182c-1182eMc 1182f-11837Mn 11838Mc 11839-1183aMn 1183bPo 118a0-118bfLu 118c0-118dfLl",
   "118e0-118e9Nd 118ea-118f2No 118ff-11906Lo 11909Lo 1190c-11913Lo 11915-11916Lo 11918-1192fLo",
   "11930-11935Mc 11937-11938Mc 1193b-1193cMn 1193dMc 1193eMn 1193fLo 11940Mc 11941Lo 11942Mc",
   "11943Mn 11944-11946Po 11950-11959Nd 119a0-119a7Lo 119aa-119d0Lo 119d1-119d3Mc 119d4-119d7Mn",
   "119da-119dbMn 119dc-119dfMc 119e0Mn 119e1Lo 119e2Po 119e3Lo 119e4Mc 11a00Lo 11a01-11a0aMn",
   "11a0b-11a32Lo 11a33-11a38Mn 11a39Mc 11a3aLo 11a3b-11a3eMn 11a3f-11a46Po 11a47Mn 11a50Lo",
   "11a51-11a56Mn 11a57-11a58Mc 11a59-11a5bMn 11a5c-11a89Lo 11a8a-11a96Mn 11a97Mc 11a98-11a99Mn",
   "11a9a-11a9cPo 11a9dLo 11a9e-11aa2Po 11ab0-11af8Lo 11b00-11b09Po 11b60Mn 11b61Mc",
   "11b62-11b64Mn 11b65Mc 11b66Mn 11b67Mc 11bc0-11be0Lo 11be1Po 11bf0-11bf9Nd 11c00-11c08Lo",
   "11c0a-11c2eLo 11c2fMc 11c30-11c36Mn 11c38-11c3dMn 11c3eMc 11c3fMn 11c40Lo 11c41-11c45Po",
   "11c50-11c59Nd 11c5a-11c6cNo 11c70-11c71Po 11c72-11c8fLo 11c92-11ca7Mn 11ca9Mc 11caa-11cb0Mn",
   "11cb1Mc 11cb2-11cb3Mn 11cb4Mc 11cb5-11cb6Mn 11d00-11d06Lo 11d08-11d09Lo 11d0b-11d30Lo",
   "11d31-11d36Mn 11d3aMn 11d3c-11d3dMn 11d3f-11d45Mn 11d46Lo 11d47Mn 11d50-11d59Nd",
   "11d60-11d65Lo 11d67-11d68Lo 11d6a-11d89Lo 11d8a-11d8eMc 11d90-11d91Mn 11d93-11d94Mc 11d95Mn",
   "11d96Mc 11d97Mn 11d98Lo 11da0-11da9Nd 11db0-11dd8Lo 11dd9Lm 11dda-11ddbLo 11de0-11de9Nd",
   "11ee0-11ef2Lo 11ef3-11ef4Mn 11ef5-11ef6Mc 11ef7-11ef8Po 11f00-11f01Mn 11f02Lo 11f03Mc",
   "11f04-11f10Lo 11f12-11f33Lo 11f34-11f35Mc 11f36-11f3aMn 11f3e-11f3fMc 11f40Mn 11f41Mc",
   "11f42Mn 11f43-11f4fPo 11f50-11f59Nd 11f5aMn 11fb0Lo 11fc0-11fd4No 11fd5-11fdcSo",
   "11fdd-11fe0Sc 11fe1-11ff1So 11fffPo 12000-12399Lo 12400-1246eNl 12470-12474Po 12480-12543Lo",
   "12f90-12ff0Lo 12ff1-12ff2Po 13000-1342fLo 13430-1343fCf 13440Mn 13441-13446Lo 13447-13455Mn",
   "13460-143faLo 14400-14646Lo 16100-1611dLo 1611e-16129Mn 1612a-1612cMc 1612d-1612fMn",
   "16130-16139Nd 16800-16a38Lo 16a40-16a5eLo 16a60-16a69Nd 16a6e-16a6fPo 16a70-16abeLo",
   "16ac0-16ac9Nd 16ad0-16aedLo 16af0-16af4Mn 16af5Po 16b00-16b2fLo 16b30-16b36Mn 16b37-16b3bPo",
   "16b3c-16b3fSo 16b40-16b43Lm 16b44Po 16b45So 16b50-16b59Nd 16b5b-16b61No 16b63-16b77Lo",
   "16b7d-16b8fLo 16d40-16d42Lm 16d43-16d6aLo 16d6b-16d6cLm 16d6d-16d6fPo 16d70-16d79Nd",
   "16e40-16e5fLu 16e60-16e7fLl 16e80-16e96No 16e97-16e9aPo 16ea0-16eb8Lu 16ebb-16ed3Ll",
   "16f00-16f4aLo 16f4fMn 16f50Lo 16f51-16f87Mc 16f8f-16f92Mn 16f93-16f9fLm 16fe0-16fe1Lm",
   "16fe2Po 16fe3Lm 16fe4Mn 16ff0-16ff1Mc 16ff2-16ff3Lm 16ff4-16ff6Nl 17000-18cd5Lo",
   "18cff-18d1eLo 18d80-18df2Lo 1aff0-1aff3Lm 1aff5-1affbLm 1affd-1affeLm 1b000-1b122Lo 1b132Lo",
   "1b150-1b152Lo 1b155Lo 1b164-1b167Lo 1b170-1b2fbLo 1bc00-1bc6aLo 1bc70-1bc7cLo 1bc80-1bc88Lo",
   "1bc90-1bc99Lo 1bc9cSo 1bc9d-1bc9eMn 1bc9fPo 1bca0-1bca3Cf 1cc00-1ccefSo 1ccf0-1ccf9Nd",
   "1ccfa-1ccfcSo 1cd00-1ceb3So 1ceba-1ced0So 1cee0-1ceefSo 1cef0Sm 1cf00-1cf2dMn 1cf30-1cf46Mn",
   "1cf50-1cfc3So 1d000-1d0f5So 1d100-1d126So 1d129-1d164So 1d165-1d166Mc 1d167-1d169Mn",
   "1d16a-1d16cSo 1d16d-1d172Mc 1d173-1d17aCf 1d17b-1d182Mn 1d183-1d184So 1d185-1d18bMn",
   "1d18c-1d1a9So 1d1aa-1d1adMn 1d1ae-1d1eaSo 1d200-1d241So 1d242-1d244Mn 1d245So 1d2c0-1d2d3No",
   "1d2e0-1d2f3No 1d300-1d356So 1d360-1d378No 1d400-1d419Lu 1d41a-1d433Ll 1d434-1d44dLu",
   "1d44e-1d454Ll 1d456-1d467Ll 1d468-1d481Lu 1d482-1d49bLl 1d49cLu 1d49e-1d49fLu 1d4a2Lu",
   "1d4a5-1d4a6Lu 1d4a9-1d4acLu 1d4ae-1d4b5Lu 1d4b6-1d4b9Ll 1d4bbLl 1d4bd-1d4c3Ll 1d4c5-1d4cfLl",
   "1d4d0-1d4e9Lu 1d4ea-1d503Ll 1d504-1d505Lu 1d507-1d50aLu 1d50d-1d514Lu 1d516-1d51cLu",
   "1d51e-1d537Ll 1d538-1d539Lu 1d53b-1d53eLu 1d540-1d544Lu 1d546Lu 1d54a-1d550Lu 1d552-1d56bLl",
   "1d56c-1d585Lu 1d586-1d59fLl 1d5a0-1d5b9Lu 1d5ba-1d5d3Ll 1d5d4-1d5edLu 1d5ee-1d607Ll",
   "1d608-1d621Lu 1d622-1d63bLl 1d63c-1d655Lu 1d656-1d66fLl 1d670-1d689Lu 1d68a-1d6a5Ll",
   "1d6a8-1d6c0Lu 1d6c1Sm 1d6c2-1d6daLl 1d6dbSm 1d6dc-1d6e1Ll 1d6e2-1d6faLu 1d6fbSm",
   "1d6fc-1d714Ll 1d715Sm 1d716-1d71bLl 1d71c-1d734Lu 1d735Sm 1d736-1d74eLl 1d74fSm",
   "1d750-1d755Ll 1d756-1d76eLu 1d76fSm 1d770-1d788Ll 1d789Sm 1d78a-1d78fLl 1d790-1d7a8Lu",
   "1d7a9Sm 1d7aa-1d7c2Ll 1d7c3Sm 1d7c4-1d7c9Ll 1d7caLu 1d7cbLl 1d7ce-1d7ffNd 1d800-1d9ffSo",
   "1da00-1da36Mn 1da37-1da3aSo 1da3b-1da6cMn 1da6d-1da74So 1da75Mn 1da76-1da83So 1da84Mn",
   "1da85-1da86So 1da87-1da8bPo 1da9b-1da9fMn 1daa1-1daafMn 1df00-1df09Ll 1df0aLo 1df0b-1df1eLl",
   "1df25-1df2aLl 1e000-1e006Mn 1e008-1e018Mn 1e01b-1e021Mn 1e023-1e024Mn 1e026-1e02aMn",
   "1e030-1e06dLm 1e08fMn 1e100-1e12cLo 1e130-1e136Mn 1e137-1e13dLm 1e140-1e149Nd 1e14eLo",
   "1e14fSo 1e290-1e2adLo 1e2aeMn 1e2c0-1e2ebLo 1e2ec-1e2efMn 1e2f0-1e2f9Nd 1e2ffSc",
   "1e4d0-1e4eaLo 1e4ebLm 1e4ec-1e4efMn 1e4f0-1e4f9Nd 1e5d0-1e5edLo 1e5ee-1e5efMn 1e5f0Lo",
   "1e5f1-1e5faNd 1e5ffPo 1e6c0-1e6deLo 1e6e0-1e6e2Lo 1e6e3Mn 1e6e4-1e6e5Lo 1e6e6Mn",
   "1e6e7-1e6edLo 1e6ee-1e6efMn 1e6f0-1e6f4Lo 1e6f5Mn 1e6feLo 1e6ffLm 1e7e0-1e7e6Lo",
   "1e7e8-1e7ebLo 1e7ed-1e7eeLo 1e7f0-1e7feLo 1e800-1e8c4Lo 1e8c7-1e8cfNo 1e8d0-1e8d6Mn",
   "1e900-1e921Lu 1e922-1e943Ll 1e944-1e94aMn 1e94bLm 1e950-1e959Nd 1e95e-1e95fPo 1ec71-1ecabNo",
   "1ecacSo 1ecad-1ecafNo 1ecb0Sc 1ecb1-1ecb4No 1ed01-1ed2dNo 1ed2eSo 1ed2f-1ed3dNo",
   "1ee00-1ee03Lo 1ee05-1ee1fLo 1ee21-1ee22Lo 1ee24Lo 1ee27Lo 1ee29-1ee32Lo 1ee34-1ee37Lo",
   "1ee39Lo 1ee3bLo 1ee42Lo 1ee47Lo 1ee49Lo 1ee4bLo 1ee4d-1ee4fLo 1ee51-1ee52Lo 1ee54Lo 1ee57Lo",
   "1ee59Lo 1ee5bLo 1ee5dLo 1ee5fLo 1ee61-1ee62Lo 1ee64Lo 1ee67-1ee6aLo 1ee6c-1ee72Lo",
   "1ee74-1ee77Lo 1ee79-1ee7cLo 1ee7eLo 1ee80-1ee89Lo 1ee8b-1ee9bLo 1eea1-1eea3Lo 1eea5-1eea9Lo",
   "1eeab-1eebbLo 1eef0-1eef1Sm 1f000-1f02bSo 1f030-1f093So 1f0a0-1f0aeSo 1f0b1-1f0bfSo",
   "1f0c1-1f0cfSo 1f0d1-1f0f5So 1f100-1f10cNo 1f10d-1f1adSo 1f1e6-1f202So 1f210-1f23bSo",
   "1f240-1f248So 1f250-1f251So 1f260-1f265So 1f300-1f3faSo 1f3fb-1f3ffSk 1f400-1f6d8So",
   "1f6dc-1f6ecSo 1f6f0-1f6fcSo 1f700-1f7d9So 1f7e0-1f7ebSo 1f7f0So 1f800-1f80bSo 1f810-1f847So",
   "1f850-1f859So 1f860-1f887So 1f890-1f8adSo 1f8b0-1f8bbSo 1f8c0-1f8c1So 1f8d0-1f8d8Sm",
   "1f900-1fa57So 1fa60-1fa6dSo 1fa70-1fa7cSo 1fa80-1fa8aSo 1fa8e-1fac6So 1fac8So 1facd-1fadcSo",
   "1fadf-1faeaSo 1faef-1faf8So 1fb00-1fb92So 1fb94-1fbefSo 1fbf0-1fbf9Nd 1fbfaSo 20000-2a6dfLo",
   "2a700-2b81dLo 2b820-2ceadLo 2ceb0-2ebe0Lo 2ebf0-2ee5dLo 2f800-2fa1dLo 30000-3134aLo",
   "31350-33479Lo e0001Cf e0020-e007fCf e0100-e01efMn f0000-ffffdCo 100000-10fffdCo"]

/-- The assigned ranges in ascending order. -/
def table : Array (CodeRange Category) :=
  CodeRange.tableOfLines (fun name => (ofAbbreviation? name).getD .unassigned) tableLines

/-- The category of a character. -/
def of (c : Char) : Category :=
  ((CodeRange.find? table c.toNat).map (·.label)).getD .unassigned

end Category

end ClauseMatch
