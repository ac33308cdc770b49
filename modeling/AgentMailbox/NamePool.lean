import AgentMailbox.Text

/-!
# The name pool

The given and family names that issued names are drawn from, by tradition.
-/
namespace AgentMailbox

/-- `NAME_POOL`: tradition, given names, family names. -/
def namePool : List (String × List String × List String) := [
  ("arabic", [
    "amina", "bilal", "farida", "hala", "hassan", "idris", "jamila", "kareem", "khalid", "layla",
    "mahmood", "nadia", "noor", "omar", "rania", "salma", "samir", "tariq", "yusuf", "zaynab"], [
    "aziz", "bakri", "darwish", "farouk", "haddad", "hakim", "jaber", "khoury", "mansour", "murad",
    "nasser", "othman", "qasim", "rahman", "sabbagh", "saleh", "sultan", "zahra"]),
  ("bengali", [
    "aabu", "aamaayaa", "aannd", "aaphiyaa", "aariyaan", "aashutoss", "aayushi", "ahnaa", "antraa",
    "arpitaa", "binaa", "duurgaa", "ekraamul", "imtiyaaj", "jnaa", "mehjaabin", "muntaasir",
    "nishitaa", "nusraat", "prdiip"], [
    "aabdullaah", "bos", "cyaattaarji", "daashguptaa", "deb", "islaam", "jaamaan", "khaatun",
    "kumaar", "mjumdaar", "mrdhaa", "paal", "paanndde", "poddaar", "raay", "saahaa", "sen",
    "shuklaa", "sinhaa", "tthaakur"]),
  ("chinese", [
    "bin", "chao", "dan", "fan", "guifang", "guilan", "guirong", "guixiang", "guizhen", "hao",
    "hongmei", "jia", "jian", "jianjun", "jun", "lihua", "liu", "shulan", "tao", "xiuyun"], [
    "cao", "cui", "gao", "hua", "huang", "jia", "jiang", "jiao", "liu", "luo", "pan", "shi", "sun",
    "tao", "tian", "wen", "xia", "yuan", "zhao", "zhou"]),
  ("czech", [
    "andrea", "bohumil", "drahoslava", "dusan", "edita", "igor", "jana", "klara", "kveta",
    "ladislav", "ludmila", "miroslava", "mojmir", "patricie", "peter", "renata", "rostislav",
    "tomas", "vera", "zdenka"], [
    "benesova", "bilek", "cechova", "horacek", "janda", "krausova", "machackova", "navratil",
    "navratilova", "nemec", "novakova", "ruzickova", "sedlacek", "stepankova", "sykora",
    "sykorova", "tesar", "vackova", "vanek", "vankova"]),
  ("dutch", [
    "ayden", "bilal", "catharina", "duuk", "faye", "fien", "isa", "jolie", "kian", "leah", "meike",
    "mila", "milo", "nout", "rayan", "rosa", "silke", "teun", "ties", "yara"], [
    "chevresson", "deboer", "degraaf", "deroos", "ehlert", "hagendoorn", "keijzer", "koster",
    "lensen", "luboch", "middelkoop", "niermann", "nollee", "ruijs", "suijker", "vandedarnau",
    "vandeplas", "vanhagen", "vanlanden", "vanleeuwen"]),
  ("english", [
    "andrea", "ashleigh", "carole", "christian", "diane", "gemma", "hannah", "jemma", "keith",
    "lee", "leigh", "leon", "leslie", "maria", "marian", "mohamed", "nicole", "paige", "peter",
    "rachael"], [
    "adams", "begum", "blake", "bowen", "cole", "davies", "dobson", "evans", "glover", "greenwood",
    "harvey", "hudson", "miller", "patel", "patterson", "price", "taylor", "tomlinson", "williams",
    "wilson"]),
  ("finnish", [
    "aino", "aleksanteri", "annikki", "hannele", "helena", "henrik", "ilmari", "kaarina", "kaarlo",
    "kerttu", "leo", "marjatta", "markus", "mikael", "nina", "olavi", "riitta", "tapani", "tarja",
    "tuulikki"], [
    "auvinen", "eriksson", "hakala", "hamalainen", "hartikainen", "hietanen", "jantti",
    "jauhiainen", "karki", "lahti", "lampinen", "lindroos", "makinen", "mustonen", "nieminen",
    "pulkkinen", "rajala", "salonen", "tuominen", "voutilainen"]),
  ("french", [
    "alexandria", "alix", "alphonse", "audrey", "benjamin", "catherine", "celina", "celine",
    "emilie", "jean", "julien", "laure", "marcel", "margaux", "maryse", "monique", "penelope",
    "rene", "sabine", "thibault"], [
    "antoine", "bailly", "barre", "bonnin", "brunet", "chartier", "chauveau", "couturier",
    "gauthier", "gregoire", "hubert", "jean", "laurent", "lefort", "legendre", "lenoir",
    "letellier", "lopes", "nguyen", "pascal"]),
  ("german", [
    "anatol", "andreas", "aziz", "beate", "evamaria", "hildegund", "ilonka", "jozef", "juliana",
    "katherina", "larissa", "liliana", "louis", "marika", "michail", "otto", "pietro", "sarina",
    "silvio", "susana"], [
    "birnbaum", "bruder", "dehmel", "fliegner", "geisler", "gude", "hamann", "hauffer", "hecker",
    "jakel", "kaul", "kohler", "kroker", "malzer", "mies", "pechel", "stadelmann", "vanderdussen",
    "weinhold", "wieloch"]),
  ("greek", [
    "agathe", "akribe", "antonios", "arguro", "athanasia", "athenodoros", "barsamia", "damaskene",
    "ignatia", "iordanes", "ippokrates", "kleomenes", "lukourgos", "margarita", "matthaios",
    "roza", "spuridon", "stauroula", "stephanos", "sumeon"], [
    "arguropoulos", "daneles", "dele", "emmanouel", "georgoudes", "gkabrou", "ketesidou",
    "kharalampidou", "koltsake", "koukoubinos", "mauridou", "mexe", "patmanides", "petta",
    "plakotares", "roditou", "sakke", "taphrale", "toromides", "zedianakes"]),
  ("hebrew", [
    "asher", "avram", "boaz", "dalia", "eitan", "ezra", "gideon", "michal", "naomi", "noa",
    "reuven", "shoshana", "talia", "tamar", "yael", "yitzhak"], [
    "abadi", "adler", "barlev", "bendavid", "gutman", "harari", "katz", "levin", "mizrahi",
    "peretz", "rosen", "segal", "shapiro", "weiss"]),
  ("hindi", [
    "anil", "aniruddh", "annimaa", "bhaart", "cndrkaantaa", "devdaas", "devii", "diipti", "gopaal",
    "hriish", "ilaa", "kaalii", "kmlaa", "mhendraa", "mniissaa", "raajesh", "snjnaa", "sohel",
    "stii", "umaa"], [
    "aahuujaa", "aroraa", "bnrjii", "buruaah", "cauhaan", "codhrii", "copraa", "ddiisoujaa",
    "gaavdde", "guhaa", "jettlii", "jhaa", "maalik", "maitii", "mehtaa", "mlhotraa", "naath",
    "reddddii", "shaah", "shuklaa"]),
  ("hungarian", [
    "andras", "andrea", "anna", "beata", "csaba", "diana", "dora", "erika", "erzsebet", "ildiko",
    "ilona", "istvan", "janos", "jozsef", "judit", "klaudia", "laszlo", "magdolna", "margit",
    "maria"], [
    "bakos", "balint", "budai", "csonka", "gal", "hajdu", "kiraly", "kovacs", "lakatos", "laszlo",
    "marton", "molnar", "nemeth", "olah", "sandor", "simon", "szabo", "szilagyi", "takacs",
    "varga"]),
  ("indonesian", [
    "artawan", "bakianto", "cakrawala", "gandi", "gangsa", "hardana", "hilda", "irsad", "ivan",
    "luluh", "luthfi", "luwar", "muni", "panca", "perkasa", "puput", "reksa", "soleh", "tami",
    "viman"], [
    "dongoran", "fujiati", "habibi", "hariyah", "hartati", "kuswoyo", "mangunsong", "melani",
    "nababan", "prasetyo", "puspasari", "puspita", "safitri", "santoso", "setiawan", "situmorang",
    "usada", "usamah", "utama", "widiastuti"]),
  ("italian", [
    "alessia", "alessio", "antonello", "cesare", "elvira", "giampaolo", "gianfranco", "gianluca",
    "isa", "leopoldo", "liberto", "liliana", "lorenzo", "ludovica", "martino", "mirco", "patrizio",
    "raffaello", "romeo", "virginia"], [
    "armani", "bernardi", "borromeo", "cortese", "dibiasi", "dona", "fantozzi", "ferrante",
    "interminei", "liguori", "muratori", "palmisano", "paolucci", "raurica", "salata", "scalfaro",
    "terragni", "tomasini", "vismara", "zabarella"]),
  ("japanese", [
    "chunxiang", "gan", "heye", "huazi", "jianai", "jieyi", "kumizi", "liangjie", "lijia",
    "mingmei", "qiandai", "qixia", "ren", "sayuri", "taozi", "xiangzhi", "xiuping", "xue",
    "yangjie", "yangyi"], [
    "abu", "dubian", "futian", "gangtian", "gaoqiao", "houteng", "jitian", "lingmu", "qiaoben",
    "qingshui", "sanpu", "sen", "shanqi", "shantian", "songtian", "tianzhong", "xiaolin", "yiteng",
    "zhongchuan", "zuoteng"]),
  ("korean", [
    "areum", "boram", "dohyeon", "donghyeon", "doyun", "eunji", "eunju", "eunseo", "eunyeong",
    "gyeonghyi", "gyeongja", "gyeongsu", "gyeongsug", "hayun", "hyeonji", "hyeonju", "hyeonsug",
    "jaeho", "jeongho", "jeonghyi"], [
    "bae", "baeg", "bag", "coe", "eom", "gim", "gweon", "han", "heo", "jeon", "jin", "min", "mun",
    "nam", "ryu", "seo", "sim", "sin", "son", "yun"]),
  ("nepali", [
    "amvikaa", "arcnaa", "arunn", "bimlaa", "junaa", "minaa", "raam", "rcitaa", "rjnii",
    "rnjiitaa", "ruvinaa", "saanu", "shshii", "sngitaa", "surendraa", "suvodh", "svitaa", "thinle",
    "umaa", "vijesh"], [
    "agrvaal", "amaaty", "deujaa", "girii", "guraagaaii", "gurung", "jain", "joshii", "kesii",
    "killaa", "laamaa", "maaske", "pyaakurel", "raajkrnnikaar", "shaah", "shaahii", "shrmaa",
    "silvaal", "suvedii", "thaapaa"]),
  ("norwegian", [
    "anette", "anna", "arild", "arne", "bente", "einar", "eli", "elise", "espen", "geir", "hanna",
    "hanne", "harald", "henrik", "jonas", "jorunn", "kristian", "liv", "maria", "marianne"], [
    "amundsen", "engen", "eriksen", "halvorsen", "hauge", "haugland", "jacobsen", "jakobsen",
    "kristensen", "moe", "moen", "nguyen", "odegard", "olsen", "paulsen", "ruud", "sorensen",
    "tangen", "thomassen", "tveit"]),
  ("persian", [
    "arash", "babak", "cyrus", "darius", "farhad", "kaveh", "laleh", "mitra", "nasrin", "parisa",
    "payam", "reza", "roya", "shirin", "soraya", "yasmin"], [
    "ansari", "esfahani", "farahani", "hosseini", "kermani", "moradi", "navid", "nourani",
    "parvin", "rostami", "sadeghi", "shirazi", "tehrani", "zand"]),
  ("polish", [
    "alan", "albert", "angelika", "aniela", "apolonia", "aurelia", "bianka", "cezary", "dagmara",
    "daniel", "dorota", "ewa", "igor", "jacek", "kaja", "kornelia", "leonard", "marcelina",
    "marcin", "mariusz"], [
    "andreasik", "cieciora", "dziuban", "elias", "fitas", "galik", "kiepura", "kojder", "koscik",
    "litwinowicz", "majdan", "matusewicz", "mueller", "nazarko", "pudelek", "soltan", "tatarczuk",
    "toborek", "witan", "zygula"]),
  ("portuguese", [
    "analaura", "analivia", "augusto", "catarina", "caua", "dom", "esther", "gabriela", "isabela",
    "lais", "lucca", "luigi", "manuella", "marcelo", "mariaclara", "mariaeduarda", "mathias",
    "mirella", "nicole", "paulo"], [
    "alves", "aparecida", "brito", "camara", "cassiano", "damota", "darosa", "fernandes",
    "fonseca", "guerra", "lopes", "novaes", "oliveira", "pinto", "pires", "porto", "rios",
    "santos", "silveira", "souza"]),
  ("romanian", [
    "ana", "antonie", "ariana", "camil", "cecilia", "dominic", "doriana", "gica", "gratiana",
    "heracleea", "ilie", "irina", "leontin", "ligia", "luciana", "luiza", "nelu", "romanita",
    "romulus", "roxelana"], [
    "ababei", "ardelean", "diaconescu", "dinu", "dobre", "dumitrescu", "ene", "gheorghiu",
    "ionita", "mazilescu", "mocanu", "nistor", "nita", "oprea", "pop", "preda", "stancu", "tabacu",
    "toma", "tudor"]),
  ("russian", [
    "alevtina", "ermil", "evlampii", "fadei", "fedosii", "gerasim", "ian", "klavdii", "lev",
    "marfa", "mechislav", "mokei", "olga", "polikarp", "rodion", "simon", "taisiia", "valentin",
    "viktoriia", "zakhar"], [
    "aleksandrov", "beliaev", "belousova", "dmitrieva", "doronina", "efremov", "iakushev",
    "kapustina", "kirillova", "larionova", "lukin", "makarova", "muravev", "rodionova",
    "shashkova", "shchukina", "shiriaeva", "simonov", "solovev", "vasilev"]),
  ("spanish", [
    "alonso", "alvaro", "amanda", "benjamin", "berta", "conchita", "eduardo", "elvira", "eugenio",
    "florencia", "francisca", "gabriel", "ivan", "juana", "mariana", "mauricio", "reina",
    "rodrigo", "sandra", "uriel"], [
    "avila", "cardenas", "delagarza", "delatorre", "escamilla", "esquibel", "gallardo", "garica",
    "jaramillo", "maestas", "malave", "marquez", "montanez", "narvaez", "ocasio", "ortega",
    "pizarro", "rascon", "sauceda", "tovar"]),
  ("swahili", [
    "adhra", "adia", "asanti", "bahari", "chuki", "dunia", "enzi", "evance", "faisa", "hidaya",
    "kashangaki", "kibafupia", "kovu", "laini", "madini", "mahali", "makuu", "muhima", "nyasi",
    "panya"], [
    "akinyi", "atieno", "baharia", "hassani", "ibrahim", "juma", "kahinu", "kamau", "kipkorir",
    "kiprono", "kiptoo", "magombo", "mohamed", "mwangi", "omar", "ouma", "owuor", "rikke",
    "sinema", "wafula"]),
  ("swedish", [
    "alexander", "alexandra", "allan", "anders", "anette", "anna", "annika", "assar", "aurora",
    "bertil", "egon", "elin", "elisabeth", "eric", "erik", "estelle", "evelyn", "helena", "ingrid",
    "johan"], [
    "abrahamsson", "andersson", "astrom", "axelsson", "brolin", "eklund", "emanuelsson",
    "eriksson", "johansson", "linden", "linder", "magnusson", "melin", "olsson", "osterberg",
    "pettersson", "rosenqvist", "sorensen", "wallin", "widen"]),
  ("tamil", [
    "anitha", "arun", "bala", "divya", "kamala", "karthik", "kavya", "lakshmi", "meena", "murugan",
    "nithya", "priya", "ravi", "senthil", "suresh", "vijay"], [
    "chelvam", "iyer", "kannan", "murthy", "nadar", "natarajan", "pillai", "rajan", "raman",
    "selvam", "subramanian", "venkatesan"]),
  ("turkish", [
    "adem", "almast", "asir", "aylil", "banu", "bediriye", "biltas", "cuneyit", "feryas", "gokten",
    "halidun", "humeyra", "isin", "izel", "kenter", "mecit", "muktedir", "nurmelek", "risalet",
    "sabih"], [
    "akcay", "aksu", "alemdar", "arsoy", "bilgin", "cetin", "demirel", "duran", "gulen", "hancer",
    "ihsanoglu", "kisakurek", "koruturk", "mansiz", "safak", "sama", "sener", "sezer", "ulker",
    "yildirim"]),
  ("ukrainian", [
    "albert", "alevtin", "boguslava", "borislav", "danilo", "edita", "ganna", "iakiv", "iaroslava",
    "ignat", "iukhim", "khoma", "maksim", "marina", "marusia", "mikhailina", "mikita", "orkhip",
    "petro", "roksolana"], [
    "artimishina", "chervonenko", "gaida", "gavrilishin", "irvanets", "iukhimenko", "ivasiuk",
    "khomenko", "kibkalo", "neporozhnii", "nosachenko", "orobets", "poltavets", "pustovit",
    "romanchuk", "sirobaba", "tsiutsiura", "vasilenko", "velichko", "vivcharenko"])]

/-- `GIVEN_NAMES`. -/
def givenNames : List String := namePool.flatMap fun tradition => tradition.2.1

/-- `FAMILY_NAMES`. -/
def familyNames : List String := namePool.flatMap fun tradition => tradition.2.2

/-- Every entry is already canonical. -/
theorem namePool_plain : ∀ name ∈ givenNames ++ familyNames, Plain name := by
  have hbytes : ∀ name ∈ givenNames ++ familyNames,
      name.toByteArray.data.toList.all (fun b => isPlain (Char.ofUInt8 b)) = true := by
    decide +kernel
  intro name hname
  exact plain_of_bytes (List.all_eq_true.mp (hbytes name hname))

lemma length_le_bytes (s : String) : s.toList.length ≤ s.toByteArray.data.toList.length := by
  rw [bytes_eq]
  induction s.toList with
  | nil => exact le_rfl
  | cons c cs ih =>
    have hpos := c.utf8Size_pos
    rw [List.flatMap_cons, List.length_append, String.length_utf8EncodeChar, List.length_cons]
    omega

/-- Every entry is one word, short enough for two of them to make a name. -/
theorem namePool_words : ∀ name ∈ givenNames ++ familyNames,
    '_' ∉ name.toList ∧ name.toList ≠ [] ∧ name.toList.length ≤ 31 := by
  have hbytes : ∀ name ∈ givenNames ++ familyNames, (95 : UInt8) ∉ name.toByteArray.data.toList ∧
      name.toByteArray.data.toList ≠ [] ∧ name.toByteArray.data.toList.length ≤ 31 := by
    decide +kernel
  intro name hname
  obtain ⟨hunderscore, hne, hlength⟩ := hbytes name hname
  refine ⟨?_, ?_, (length_le_bytes name).trans hlength⟩
  · intro hmem
    apply hunderscore
    rw [bytes_eq]
    exact List.mem_flatMap.mpr ⟨'_', hmem, by decide⟩
  · intro hnil
    apply hne
    rw [bytes_eq, hnil, List.flatMap_nil]

end AgentMailbox
