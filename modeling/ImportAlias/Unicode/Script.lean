import ImportAlias.Unicode.Category

/-!
# Scripts

Every character belongs to one script, which has a code of four letters. The table lists runs of code
points in order, from zero on: the code of a script and the number of code points that have it.
-/

namespace ImportAlias

namespace Unicode

/-- A run of code points of one script, from a first one on. -/
structure ScriptRun where
  first : Nat
  script : String
deriving Inhabited

/-- The runs that a part of the table lists, from a code point on. The letters and the number read so
far belong to the run that comes next. -/
def readScriptRuns : Nat → List Char → Nat → List Char → List ScriptRun
  | first, script, _, [] => [⟨first, String.ofList script⟩]
  | first, script, count, char :: rest =>
    if char.isDigit then
      readScriptRuns first script (count * 10 + (char.toNat - '0'.toNat)) rest
    else if count = 0 then readScriptRuns first (script ++ [char]) 0 rest
    else ⟨first, String.ofList script⟩ :: readScriptRuns (first + count) [char] 0 rest

/-- Part 1 of the table. -/
def scriptText1 : List String :=
  ["zyyy65latn26zyyy6latn26zyyy47latn1zyyy15latn1zyyy5latn23zyyy1latn31zyyy1latn449zyyy39latn5",
    "zyyy5bopo2zyyy20zinh112grek4zyyy1grek3zzzz2grek4zyyy1grek1zzzz4grek1zyyy1grek1zyyy1grek3",
    "zzzz1grek1zzzz1grek20zzzz1grek63copt14grek16cyrl133zinh2cyrl169zzzz1armn38zzzz2armn50zzzz2",
    "armn3zzzz1hebr55zzzz8hebr27zzzz4hebr6zzzz11arab5zyyy1arab6zyyy1arab14zyyy1arab3zyyy1arab32",
    "zyyy1arab10zinh11arab26zinh1arab108zyyy1arab34syrc14zzzz1syrc60zzzz2syrc3arab48thaa50zzzz14",
    "nkoo59zzzz2nkoo3samr46zzzz2samr15zzzz1mand28zzzz2mand1zzzz1syrc11zzzz5arab34zzzz5arab75zyyy1",
    "arab29deva81zinh4deva15zyyy2deva26beng4zzzz1beng8zzzz2beng2zzzz2beng22zzzz1beng7zzzz1beng1",
    "zzzz3beng4zzzz2beng9zzzz2beng2zzzz2beng4zzzz8beng1zzzz4beng2zzzz1beng5zzzz2beng25zzzz2guru3",
    "zzzz1guru6zzzz4guru2zzzz2guru22zzzz1guru7zzzz1guru2zzzz1guru2zzzz1guru2zzzz2guru1zzzz1guru5",
    "zzzz4guru2zzzz2guru3zzzz3guru1zzzz7guru4zzzz1guru1zzzz7guru17zzzz10gujr3zzzz1gujr9zzzz1gujr3",
    "zzzz1gujr22zzzz1gujr7zzzz1gujr2zzzz1gujr5zzzz2gujr10zzzz1gujr3zzzz1gujr3zzzz2gujr1zzzz15",
    "gujr4zzzz2gujr12zzzz7gujr7zzzz1orya3zzzz1orya8zzzz2orya2zzzz2orya22zzzz1orya7zzzz1orya2zzzz1",
    "orya5zzzz2orya9zzzz2orya2zzzz2orya3zzzz7orya3zzzz4orya2zzzz1orya5zzzz2orya18zzzz10taml2zzzz1",
    "taml6zzzz3taml3zzzz1taml4zzzz3taml2zzzz1taml1zzzz1taml2zzzz3taml2zzzz3taml3zzzz3taml12zzzz4",
    "taml5zzzz3taml3zzzz1taml4zzzz2taml1zzzz6taml1zzzz14taml21zzzz5telu13zzzz1telu3zzzz1telu23",
    "zzzz1telu16zzzz2telu9zzzz1telu3zzzz1telu4zzzz7telu2zzzz1telu3zzzz1telu2zzzz2telu4zzzz2telu10",
    "zzzz7telu9knda13zzzz1knda3zzzz1knda23zzzz1knda10zzzz1knda5zzzz2knda9zzzz1knda3zzzz1knda4",
    "zzzz7knda2zzzz5knda3zzzz1knda4zzzz2knda10zzzz1knda3zzzz12mlym13zzzz1mlym3zzzz1mlym51zzzz1",
    "mlym3zzzz1mlym6zzzz4mlym16zzzz2mlym26zzzz1sinh3zzzz1sinh18zzzz3sinh24zzzz1sinh9zzzz1sinh1",
    "zzzz2sinh7zzzz3sinh1zzzz4sinh6zzzz1sinh1zzzz1sinh8zzzz6sinh10zzzz2sinh3zzzz12thai58zzzz4",
    "zyyy1thai28zzzz37laoo2zzzz1laoo1zzzz1laoo5zzzz1laoo24zzzz1laoo1zzzz1laoo23zzzz2laoo5zzzz1",
    "laoo1zzzz1laoo7zzzz1laoo10zzzz2laoo4zzzz32tibt72zzzz1tibt36zzzz4tibt39zzzz1tibt36zzzz1tibt15",
    "zzzz1tibt7zyyy4tibt2zzzz37mymr160geor38zzzz1geor1zzzz5geor1zzzz2geor43zyyy1geor4hang256",
    "ethi73zzzz1ethi4zzzz2ethi7zzzz1ethi1zzzz1ethi4zzzz2ethi41zzzz1ethi4zzzz2ethi33zzzz1ethi4",
    "zzzz2ethi7zzzz1ethi1zzzz1ethi4zzzz2ethi15zzzz1ethi57zzzz1ethi4zzzz2ethi67zzzz2ethi32zzzz3",
    "ethi26zzzz6cher86zzzz2cher6zzzz2cans640ogam29zzzz3runr75zyyy3runr11zzzz7tglg22zzzz9tglg1",
    "hano21zyyy2zzzz9buhd20zzzz12tagb13zzzz1tagb3zzzz1tagb2zzzz12khmr94zzzz2khmr10zzzz6khmr10",
    "zzzz6mong2zyyy2mong1zyyy1mong20zzzz6mong89zzzz7mong43zzzz5cans70zzzz10limb31zzzz1limb12zzzz4",
    "limb12zzzz4limb1zzzz3limb12tale30zzzz2tale5zzzz11talu44zzzz4talu26zzzz6talu11zzzz3talu2",
    "khmr32bugi28zzzz2bugi2lana63zzzz1lana29zzzz2lana11zzzz6lana10zzzz6lana14zzzz2zinh46zzzz2"]

/-- Part 2 of the table. -/
def scriptText2 : List String :=
  ["zinh12zzzz20bali77zzzz1bali50sund64batk52zzzz8batk4lepc56zzzz3lepc15zzzz3lepc3olck48cyrl11",
    "zzzz5geor43zzzz2geor3sund8zzzz8zinh3zyyy1zinh13zyyy1zinh7zyyy4zinh1zyyy6zinh1zyyy3zinh2zyyy1",
    "zzzz5latn38grek5cyrl1latn49grek5latn4grek5latn13cyrl1latn70grek1zinh64latn256grek22zzzz2",
    "grek6zzzz2grek38zzzz2grek6zzzz2grek8zzzz1grek1zzzz1grek1zzzz1grek1zzzz1grek31zzzz2grek53",
    "zzzz1grek15zzzz1grek14zzzz2grek6zzzz1grek19zzzz2grek3zzzz1grek9zzzz1zyyy12zinh2zyyy87zzzz1",
    "zyyy11latn1zzzz2zyyy11latn1zyyy15zzzz1latn13zzzz3zyyy34zzzz14zinh33zzzz15zyyy38grek1zyyy3",
    "latn2zyyy6latn1zyyy27latn1zyyy17latn41zyyy3zzzz4zyyy666zzzz22zyyy11zzzz21zyyy928brai256",
    "zyyy628zzzz2zyyy138glag96latn32copt116zzzz5copt7geor38zzzz1geor1zzzz5geor1zzzz2tfng56zzzz7",
    "tfng2zzzz14tfng1ethi23zzzz9ethi7zzzz1ethi7zzzz1ethi7zzzz1ethi7zzzz1ethi7zzzz1ethi7zzzz1ethi7",
    "zzzz1ethi7zzzz1cyrl32zyyy94zzzz34hani26zzzz1hani89zzzz12hani214zzzz26zyyy21hani1zyyy1hani1",
    "zyyy25hani9zinh4hang2zyyy8hani4zyyy4zzzz1hira86zzzz2zinh2zyyy2hira3zyyy1kana90zyyy2kana3",
    "zzzz5bopo43zzzz1hang94zzzz1zyyy16bopo32zyyy38zzzz9zyyy1kana16hang31zzzz1zyyy64hang31zyyy81",
    "kana47zyyy1kana88zyyy168hani6592zyyy64hani20992yiii1165zzzz3yiii55zzzz9lisu48vaii300zzzz20",
    "cyrl96bamu88zzzz8zyyy34latn102zyyy3latn82zzzz20latn15sylo45zzzz3zyyy10zzzz6phag56zzzz8saur70",
    "zzzz8saur12zzzz6deva32kali46zyyy1kali1rjng36zzzz11rjng1hang29zzzz3java78zzzz1zyyy1java10",
    "zzzz4java2mymr31zzzz1cham55zzzz9cham14zzzz2cham10zzzz2cham4mymr32tavt67zzzz24tavt5mtei23",
    "zzzz10ethi6zzzz2ethi6zzzz2ethi6zzzz9ethi7zzzz1ethi7zzzz1latn43zyyy1latn9grek1latn4zyyy2zzzz4",
    "cher80mtei46zzzz2mtei10zzzz6hang11172zzzz12hang23zzzz4hang49zzzz8452hani366zzzz2hani106",
    "zzzz38latn7zzzz12armn5zzzz5hebr26zzzz1hebr5zzzz1hebr1zzzz1hebr2zzzz1hebr2zzzz1hebr10arab494",
    "zyyy2arab144zzzz32arab16zinh16zyyy10zzzz6zinh14cyrl2zyyy35zzzz1zyyy19zzzz1zyyy4zzzz4arab5",
    "zzzz1arab135zzzz2zyyy1zzzz1zyyy32latn26zyyy6latn26zyyy11kana10zyyy1kana45zyyy2hang31zzzz3",
    "hang6zzzz2hang6zzzz2hang6zzzz2hang3zzzz3zyyy7zzzz1zyyy7zzzz10zyyy5zzzz2linb12zzzz1linb26",
    "zzzz1linb19zzzz1linb2zzzz1linb15zzzz2linb14zzzz34linb123zzzz5zyyy3zzzz4zyyy45zzzz3zyyy9",
    "grek79zzzz1zyyy13zzzz3grek1zzzz47zyyy45zinh1zzzz130lyci29zzzz3cari49zzzz15zinh1zyyy27zzzz4",
    "ital36zzzz9ital3goth27zzzz5perm43zzzz5ugar30zzzz1ugar1xpeo36zzzz4xpeo14zzzz42dsrt80shaw48",
    "osma30zzzz2osma10zzzz6osge36zzzz4osge36zzzz4elba40zzzz8aghb52zzzz11aghb1vith11zzzz1vith15",
    "zzzz1vith7zzzz1vith2zzzz1vith11zzzz1vith15zzzz1vith7zzzz1vith2zzzz3todr52zzzz12lina311zzzz9",
    "lina22zzzz10lina8zzzz24latn6zzzz1latn42zzzz1latn9zzzz69cprt6zzzz2cprt1zzzz1cprt44zzzz1cprt2",
    "zzzz3cprt1zzzz2cprt1armi22zzzz1armi9palm32nbat31zzzz8nbat9zzzz48hatr19zzzz1hatr2zzzz5hatr5",
    "phnx28zzzz3phnx1lydi26zzzz5lydi1sidt26zzzz38mero32merc24zzzz4merc20zzzz2merc46khar4zzzz1"]

/-- Part 3 of the table. -/
def scriptText3 : List String :=
  ["khar2zzzz5khar8zzzz1khar3zzzz1khar29zzzz2khar3zzzz4khar10zzzz7khar9zzzz7sarb32narb32zzzz32",
    "mani39zzzz4mani12zzzz9avst54zzzz3avst7prti22zzzz2prti8phli19zzzz5phli8phlp18zzzz7phlp4zzzz12",
    "phlp7zzzz80orkh73zzzz55hung51zzzz13hung51zzzz7hung6rohg40zzzz8rohg10zzzz6gara38zzzz3gara29",
    "zzzz8gara2zzzz208arab31zzzz1yezi42zzzz1yezi3zzzz2yezi2zzzz16arab6zzzz8arab9zzzz33arab6sogo40",
    "zzzz8sogd42zzzz22ougr26zzzz38chrs28zzzz20elym23zzzz9brah78zzzz4brah36zzzz9brah1kthi67zzzz10",
    "kthi1zzzz2sora25zzzz7sora10zzzz6cakm53zzzz1cakm18zzzz8mahj39zzzz9shrd96zzzz1sinh20zzzz11",
    "khoj18zzzz1khoj47zzzz62mult7zzzz1mult1zzzz1mult4zzzz1mult15zzzz1mult11zzzz6sind59zzzz5sind10",
    "zzzz6gran4zzzz1gran8zzzz2gran2zzzz2gran22zzzz1gran7zzzz1gran2zzzz1gran5zzzz1zinh1gran9zzzz2",
    "gran2zzzz2gran3zzzz2gran1zzzz6gran1zzzz5gran7zzzz2gran7zzzz3gran5zzzz11tutg10zzzz1tutg1zzzz2",
    "tutg1zzzz1tutg38zzzz1tutg10zzzz1tutg1zzzz2tutg1zzzz1tutg4zzzz1tutg10zzzz1tutg2zzzz8tutg2",
    "zzzz29newa92zzzz1newa5zzzz30tirh72zzzz8tirh10zzzz166sidd54zzzz2sidd38zzzz34modi69zzzz11",
    "modi10zzzz6mong13zzzz19takr58zzzz6takr10zzzz6mymr20zzzz28ahom27zzzz2ahom15zzzz4ahom23zzzz185",
    "dogr60zzzz100wara83zzzz12wara1diak7zzzz2diak1zzzz2diak8zzzz1diak2zzzz1diak30zzzz1diak2zzzz2",
    "diak12zzzz9diak10zzzz70nand8zzzz2nand46zzzz2nand11zzzz27zanb72zzzz8soyo83zzzz13cans16pauc57",
    "zzzz7deva10zzzz86shrd8zzzz88sunu34zzzz14sunu10zzzz6bhks9zzzz1bhks45zzzz1bhks14zzzz10bhks29",
    "zzzz3marc32zzzz2marc22zzzz1marc14zzzz73gonm7zzzz1gonm2zzzz1gonm44zzzz3gonm1zzzz1gonm2zzzz1",
    "gonm9zzzz8gonm10zzzz6gong6zzzz1gong2zzzz1gong37zzzz1gong2zzzz1gong6zzzz7gong10zzzz6tols44",
    "zzzz4tols10zzzz246maka25zzzz7kawi17zzzz1kawi41zzzz3kawi29zzzz85lisu1zzzz15taml50zzzz13taml1",
    "xsux922zzzz102xsux111zzzz1xsux5zzzz11xsux196zzzz2636cpmn99zzzz13egyp1110zzzz10egyp3995zzzz5",
    "hluw583zzzz6841gukh58zzzz1734bamu569zzzz7mroo31zzzz1mroo10zzzz4mroo2tnsa79zzzz1tnsa10zzzz6",
    "bass30zzzz2bass6zzzz10hmng70zzzz10hmng10zzzz1hmng7zzzz1hmng21zzzz5hmng19zzzz432krai58zzzz198",
    "medf91zzzz5berf25zzzz2berf25zzzz44plrd75zzzz4plrd57zzzz7plrd17zzzz64tang1nshu1hani2kits1",
    "zzzz11hani7zzzz9tang6912kits470zzzz41kits1tang31zzzz97tang115zzzz8701kana4zzzz1kana7zzzz1",
    "kana2zzzz1kana1hira287kana3zzzz15hira1zzzz29hira3zzzz2kana1zzzz14kana4zzzz8nshu396zzzz2308",
    "dupl107zzzz5dupl13zzzz3dupl9zzzz7dupl10zzzz2dupl4zyyy4zzzz3932zyyy253zzzz3zyyy436zzzz6zyyy23",
    "zzzz15zyyy17zzzz15zinh46zzzz2zinh23zzzz9zyyy116zzzz60zyyy246zzzz10zyyy39zzzz2zyyy62zinh3",
    "zyyy17zinh8zyyy2zinh7zyyy30zinh4zyyy61zzzz21grek70zzzz122zyyy20zzzz12zyyy20zzzz12zyyy87zzzz9",
    "zyyy25zzzz135zyyy85zzzz1zyyy71zzzz1zyyy2zzzz2zyyy1zzzz2zyyy2zzzz2zyyy4zzzz1zyyy12zzzz1zyyy1",
    "zzzz1zyyy7zzzz1zyyy65zzzz1zyyy4zzzz2zyyy8zzzz1zyyy7zzzz1zyyy28zzzz1zyyy4zzzz1zyyy5zzzz1zyyy1",
    "zzzz3zyyy7zzzz1zyyy340zzzz2zyyy292zzzz2zyyy50sgnw652zzzz15sgnw5zzzz1sgnw15zzzz1104latn31"]

/-- Part 4 of the table. -/
def scriptText4 : List String :=
  ["zzzz6latn6zzzz213glag7zzzz1glag17zzzz2glag7zzzz1glag2zzzz1glag5zzzz5cyrl62zzzz33cyrl1zzzz112",
    "hmnp45zzzz3hmnp14zzzz2hmnp10zzzz4hmnp2zzzz320toto31zzzz17wcho58zzzz5wcho1zzzz464nagm42",
    "zzzz214onao43zzzz4onao1zzzz192tayo31zzzz1tayo22zzzz8tayo2zzzz224ethi7zzzz1ethi4zzzz1ethi2",
    "zzzz1ethi15zzzz1mend197zzzz2mend16zzzz41adlm76zzzz4adlm10zzzz4adlm2zzzz785zyyy68zzzz76zyyy61",
    "zzzz194arab4zzzz1arab27zzzz1arab2zzzz1arab1zzzz2arab1zzzz1arab10zzzz1arab4zzzz1arab1zzzz1",
    "arab1zzzz6arab1zzzz4arab1zzzz1arab1zzzz1arab1zzzz1arab3zzzz1arab2zzzz1arab1zzzz2arab1zzzz1",
    "arab1zzzz1arab1zzzz1arab1zzzz1arab1zzzz1arab2zzzz1arab1zzzz2arab4zzzz1arab7zzzz1arab4zzzz1",
    "arab4zzzz1arab1zzzz1arab10zzzz1arab17zzzz5arab3zzzz1arab5zzzz1arab17zzzz52arab2zzzz270zyyy44",
    "zzzz4zyyy100zzzz12zyyy15zzzz2zyyy15zzzz1zyyy15zzzz1zyyy37zzzz10zyyy174zzzz56zyyy26hira1zyyy2",
    "zzzz13zyyy44zzzz4zyyy9zzzz7zyyy2zzzz14zyyy6zzzz154zyyy985zzzz3zyyy17zzzz3zyyy13zzzz3zyyy218",
    "zzzz6zyyy12zzzz4zyyy1zzzz15zyyy12zzzz4zyyy56zzzz8zyyy10zzzz6zyyy40zzzz8zyyy30zzzz2zyyy12",
    "zzzz4zyyy2zzzz14zyyy9zzzz39zyyy344zzzz8zyyy14zzzz2zyyy13zzzz3zyyy11zzzz3zyyy57zzzz1zyyy1",
    "zzzz4zyyy16zzzz2zyyy12zzzz4zyyy10zzzz7zyyy147zzzz1zyyy103zzzz1029hani42720zzzz32hani4382",
    "zzzz2hani5774zzzz2hani7473zzzz15hani622zzzz2466hani542zzzz1506hani4939zzzz5hani8490",
    "zzzz707463zyyy1zzzz30zyyy96zzzz128zinh240zzzz196112"]

/-- The runs of all code points. -/
def scriptRuns : Array ScriptRun :=
  (readScriptRuns 0 [] 0
    ([scriptText1, scriptText2, scriptText3, scriptText4].flatten.flatMap String.toList)).toArray

/-- The code of the script of a code point; that of no script is `zzzz`. -/
def scriptOfCode (code : Nat) : String :=
  match scriptRuns[runIndex ScriptRun.first scriptRuns code 16 0 scriptRuns.size]? with
  | some run => run.script
  | none => "zzzz"

/-- The codes of scripts with their names, without case and underscores. -/
def scriptNames : List (String × String) :=
  [("adlm", "adlam"), ("aghb", "caucasianalbanian"), ("ahom", "ahom"), ("arab", "arabic"),
    ("armi", "imperialaramaic"), ("armn", "armenian"), ("avst", "avestan"), ("bali", "balinese"),
    ("bamu", "bamum"), ("bass", "bassavah"), ("batk", "batak"), ("beng", "bengali"),
    ("berf", "beriaerfe"), ("bhks", "bhaiksuki"), ("bopo", "bopomofo"), ("brah", "brahmi"),
    ("brai", "braille"), ("bugi", "buginese"), ("buhd", "buhid"), ("cakm", "chakma"),
    ("cans", "canadianaboriginal"), ("cari", "carian"), ("cham", "cham"), ("cher", "cherokee"),
    ("chrs", "chorasmian"), ("copt", "coptic"), ("cpmn", "cyprominoan"), ("cprt", "cypriot"),
    ("cyrl", "cyrillic"), ("deva", "devanagari"), ("diak", "divesakuru"), ("dogr", "dogra"),
    ("dsrt", "deseret"), ("dupl", "duployan"), ("egyp", "egyptianhieroglyphs"),
    ("elba", "elbasan"), ("elym", "elymaic"), ("ethi", "ethiopic"), ("gara", "garay"),
    ("geor", "georgian"), ("glag", "glagolitic"), ("gong", "gunjalagondi"),
    ("gonm", "masaramgondi"), ("goth", "gothic"), ("gran", "grantha"), ("grek", "greek"),
    ("gujr", "gujarati"), ("gukh", "gurungkhema"), ("guru", "gurmukhi"), ("hang", "hangul"),
    ("hani", "han"), ("hano", "hanunoo"), ("hatr", "hatran"), ("hebr", "hebrew"),
    ("hira", "hiragana"), ("hluw", "anatolianhieroglyphs"), ("hmng", "pahawhhmong"),
    ("hmnp", "nyiakengpuachuehmong"), ("hung", "oldhungarian"), ("ital", "olditalic"),
    ("java", "javanese"), ("kali", "kayahli"), ("kana", "katakana"), ("kawi", "kawi"),
    ("khar", "kharoshthi"), ("khmr", "khmer"), ("khoj", "khojki"), ("kits", "khitansmallscript"),
    ("knda", "kannada"), ("krai", "kiratrai"), ("kthi", "kaithi"), ("lana", "taitham"),
    ("laoo", "lao"), ("latn", "latin"), ("lepc", "lepcha"), ("limb", "limbu"), ("lina", "lineara"),
    ("linb", "linearb"), ("lisu", "lisu"), ("lyci", "lycian"), ("lydi", "lydian"),
    ("mahj", "mahajani"), ("maka", "makasar"), ("mand", "mandaic"), ("mani", "manichaean"),
    ("marc", "marchen"), ("medf", "medefaidrin"), ("mend", "mendekikakui"),
    ("merc", "meroiticcursive"), ("mero", "meroitichieroglyphs"), ("mlym", "malayalam"),
    ("modi", "modi"), ("mong", "mongolian"), ("mroo", "mro"), ("mtei", "meeteimayek"),
    ("mult", "multani"), ("mymr", "myanmar"), ("nagm", "nagmundari"), ("nand", "nandinagari"),
    ("narb", "oldnortharabian"), ("nbat", "nabataean"), ("newa", "newa"), ("nkoo", "nko"),
    ("nshu", "nushu"), ("ogam", "ogham"), ("olck", "olchiki"), ("onao", "olonal"),
    ("orkh", "oldturkic"), ("orya", "oriya"), ("osge", "osage"), ("osma", "osmanya"),
    ("ougr", "olduyghur"), ("palm", "palmyrene"), ("pauc", "paucinhau"), ("perm", "oldpermic"),
    ("phag", "phagspa"), ("phli", "inscriptionalpahlavi"), ("phlp", "psalterpahlavi"),
    ("phnx", "phoenician"), ("plrd", "miao"), ("prti", "inscriptionalparthian"),
    ("rjng", "rejang"), ("rohg", "hanifirohingya"), ("runr", "runic"), ("samr", "samaritan"),
    ("sarb", "oldsoutharabian"), ("saur", "saurashtra"), ("sgnw", "signwriting"),
    ("shaw", "shavian"), ("shrd", "sharada"), ("sidd", "siddham"), ("sidt", "sidetic"),
    ("sind", "khudawadi"), ("sinh", "sinhala"), ("sogd", "sogdian"), ("sogo", "oldsogdian"),
    ("sora", "sorasompeng"), ("soyo", "soyombo"), ("sund", "sundanese"), ("sunu", "sunuwar"),
    ("sylo", "sylotinagri"), ("syrc", "syriac"), ("tagb", "tagbanwa"), ("takr", "takri"),
    ("tale", "taile"), ("talu", "newtailue"), ("taml", "tamil"), ("tang", "tangut"),
    ("tavt", "taiviet"), ("tayo", "taiyo"), ("telu", "telugu"), ("tfng", "tifinagh"),
    ("tglg", "tagalog"), ("thaa", "thaana"), ("thai", "thai"), ("tibt", "tibetan"),
    ("tirh", "tirhuta"), ("tnsa", "tangsa"), ("todr", "todhri"), ("tols", "tolongsiki"),
    ("toto", "toto"), ("tutg", "tulutigalari"), ("ugar", "ugaritic"), ("vaii", "vai"),
    ("vith", "vithkuqi"), ("wara", "warangciti"), ("wcho", "wancho"), ("xpeo", "oldpersian"),
    ("xsux", "cuneiform"), ("yezi", "yezidi"), ("yiii", "yi"), ("zanb", "zanabazarsquare"),
    ("zinh", "inherited"), ("zyyy", "common"), ("zinh", "qaai"), ("copt", "qaac")]

/-- The code of the script with a name or a code, without case and underscores. -/
def scriptNamed? (name : String) : Option String :=
  (scriptNames.find? (fun entry => entry.1 = name || entry.2 = name)).map (fun entry => entry.1)

end Unicode

end ImportAlias
